import TamForge.Models.Base
import TamForge.ProofSupport.Checks

/-!
# Background jobs and the transactional outbox

The two tables behind the durable queue, with the application-level row and
update validators of `notifications/models.py`.  The repository writes rows
with bulk `UPDATE`s, which do not run these validators; that its writes
respect them anyway is proved in `TamForge.Jobs.Proofs`.
-/

namespace TamForge.Notifications

open Models ProofSupport

inductive JobState
  | queued | running | succeeded | failed | canceled
deriving DecidableEq

/-- `ERROR_CATEGORIES` -/
inductive ErrorCategory
  | transientDependency | resourceExhausted | invalidInput
  | permissionRequired | processingFailure | internalError
deriving DecidableEq

namespace JobState

/-- `JOB_TRANSITIONS` -/
def transitions : JobState → List JobState
  | queued => [running, canceled]
  | running => [queued, succeeded, failed, canceled]
  | succeeded => []
  | failed => []
  | canceled => []

/-- `{"succeeded", "failed", "canceled"}` -/
def isTerminal : JobState → Bool
  | queued | running => false
  | succeeded | failed | canceled => true

end JobState

/-- The v1 reference payload as the JSON object it is stored as.  An absent
key is `none`. -/
structure PayloadFields where
  schemaVersion : Nat
  subjectId : Nat
  relatedId : Option Nat
deriving DecidableEq

structure ErrorDetails where
  schemaVersion : Nat
  attempt : Option Nat
  retryAfterSeconds : Option Nat
  httpStatus : Option Nat
deriving DecidableEq

/-- `len(json.dumps(value, separators=(",", ":")).encode())` of an object whose
values are integers: braces, quoted keys, colons, digits and commas. -/
def jsonSize (fields : List (String × Nat)) : Nat :=
  2 + (fields.map fun field =>
    field.1.utf8ByteSize + 3 + (toString field.2).length).sum + (fields.length - 1)

def PayloadFields.fields (value : PayloadFields) : List (String × Nat) :=
  [("schema_version", value.schemaVersion), ("subject_id", value.subjectId)] ++
    (value.relatedId.toList.map fun related => ("related_id", related))

def ErrorDetails.fields (value : ErrorDetails) : List (String × Nat) :=
  [("schema_version", value.schemaVersion)] ++
    (value.attempt.toList.map fun attempt => ("attempt", attempt)) ++
    (value.retryAfterSeconds.toList.map fun delay => ("retry_after_seconds", delay)) ++
    (value.httpStatus.toList.map fun status => ("http_status", status))

def positiveId (value : Nat) : Bool := decide (0 < value ∧ value ≤ bigintMax)

def boundedInt (value minimum maximum : Nat) : Bool :=
  decide (minimum ≤ value ∧ value ≤ maximum)

def validateReferencePayloadV1 (value : PayloadFields) : Bool :=
  decide (jsonSize value.fields ≤ 1024) &&
    value.schemaVersion == 1 &&
    positiveId value.subjectId &&
    value.relatedId.all positiveId

def validateErrorDetailsV1 (value : ErrorDetails) : Bool :=
  decide (jsonSize value.fields ≤ 512) &&
    value.schemaVersion == 1 &&
    value.attempt.all (boundedInt · 0 100) &&
    value.retryAfterSeconds.all (boundedInt · 0 86400) &&
    value.httpStatus.all (boundedInt · 100 599)

/-- A row of `background_jobs`. -/
structure BackgroundJob where
  id : Nat
  ownerId : Nat
  kind : String
  payloadSchemaVersion : Nat
  payload : PayloadFields
  priority : Nat
  state : JobState
  idempotencyKey : String
  availableAt : Instant
  attemptCount : Nat
  maxAttempts : Nat
  leaseOwner : Option String
  leaseExpiresAt : Option Instant
  lastErrorCategory : Option ErrorCategory
  lastErrorDetails : Option ErrorDetails
  createdAt : Instant
  updatedAt : Instant
  startedAt : Option Instant
  completedAt : Option Instant
deriving DecidableEq

/-- A row of `outbox_events`. -/
structure OutboxEvent where
  id : Nat
  ownerId : Nat
  aggregateType : String
  aggregateId : Nat
  eventType : String
  payloadSchemaVersion : Nat
  payload : PayloadFields
  occurredAt : Instant
  publishedAt : Option Instant
  attempts : Nat
  idempotencyKey : String
deriving DecidableEq

/-- A `ValueError` of the notification models, with its class and its text. -/
inductive ModelError
  | notificationContract (message : String)
  | jobWorkflow (message : String)
deriving DecidableEq

/-- `value < bound` in a comparison that the source only makes when `value` is
not `None`. -/
def setBefore (value : Option Instant) (bound : Instant) : Bool :=
  value.any fun instant => decide (instant < bound)

/-- The checks of `validate_background_job`, in source order.  That `state` and
`last_error_category` are among the known words is their type. -/
def backgroundJobChecks (target : BackgroundJob) : List (Bool × ModelError) :=
  let coherent (condition : Bool) (message : String) : Bool × ModelError :=
    (condition, .jobWorkflow message)
  let inState (state : JobState) (condition : Bool) (message : String) :=
    coherent (target.state == state && condition) message
  [ coherent (!validateReferencePayloadV1 target.payload)
      "invalid background job payload",
    coherent (target.payloadSchemaVersion != target.payload.schemaVersion)
      "background job payload version is incoherent",
    coherent (!decide (target.attemptCount ≤ target.maxAttempts) ||
        !boundedInt target.maxAttempts 1 100)
      "background job attempt limits are incoherent",
    coherent (target.lastErrorCategory.isNone != target.lastErrorDetails.isNone)
      "background job error fields are incoherent",
    coherent (target.lastErrorCategory.isSome &&
        !target.lastErrorDetails.any validateErrorDetailsV1)
      "background job error details are invalid",
    coherent (decide (target.updatedAt < target.createdAt))
      "background job timestamps are not monotonic",
    coherent (target.attemptCount == 0 && target.startedAt.isSome)
      "background job start is incoherent with attempts",
    coherent (decide (0 < target.attemptCount) && target.startedAt.isNone)
      "background job start is required after a claim",
    coherent (setBefore target.startedAt target.createdAt)
      "background job start precedes creation",
    coherent (target.completedAt.isSome && target.startedAt.isNone &&
        target.state != .canceled)
      "background job completion is incoherent",
    coherent (target.startedAt.any fun started => setBefore target.completedAt started)
      "background job completion is incoherent",
    inState .queued (target.leaseOwner.isSome || target.leaseExpiresAt.isSome)
      "queued background job cannot retain a lease",
    inState .queued target.completedAt.isSome
      "queued background job cannot be completed",
    inState .running (target.attemptCount == 0 || target.leaseOwner.isNone ||
        target.leaseExpiresAt.all (fun expiry => decide (expiry ≤ target.updatedAt)) ||
        target.completedAt.isSome)
      "running background job lease is incoherent",
    inState .running target.lastErrorCategory.isSome
      "running background job must clear the prior error",
    coherent ((target.state == .succeeded || target.state == .failed) &&
        (target.attemptCount == 0 || target.leaseOwner.isSome ||
          target.leaseExpiresAt.isSome || target.completedAt.isNone))
      "terminal background job lifecycle is incoherent",
    inState .succeeded target.lastErrorCategory.isSome
      "successful background job cannot retain an error",
    inState .failed target.lastErrorCategory.isNone
      "failed background job requires a typed error",
    inState .canceled (target.leaseOwner.isSome || target.leaseExpiresAt.isSome ||
        target.completedAt.isNone || target.lastErrorCategory.isSome)
      "canceled background job lifecycle is incoherent" ]

def validateBackgroundJob (target : BackgroundJob) : Except ModelError Unit :=
  raiseFirst (backgroundJobChecks target)

/-- A write-once column: `old_value is not None and new != old_value`. -/
def rewrites (old new : Option Instant) : Bool := old.isSome && new != old

/-- The checks that `validate_background_job_update` makes against the locked
persisted row.  `now` is the clock that judges lease expiry. -/
def backgroundJobUpdateChecks (now : Instant) (old target : BackgroundJob) :
    List (Bool × ModelError) :=
  let allowed (condition : Bool) (message : String) : Bool × ModelError :=
    (condition, .jobWorkflow message)
  let claims := old.state == .queued && target.state == .running
  let beats := old.state == .running && target.state == .running
  let requeues := old.state == .running && target.state == .queued
  let leaseExpired := old.leaseExpiresAt.any fun expiry => decide (expiry ≤ now)
  let voluntaryRetry :=
    (target.lastErrorCategory == some .transientDependency ||
      target.lastErrorCategory == some .resourceExhausted) &&
    target.lastErrorDetails.isSome && decide (target.updatedAt ≤ target.availableAt)
  [ allowed old.state.isTerminal "terminal background job is immutable",
    allowed (target.ownerId != old.ownerId || target.kind != old.kind ||
        target.payloadSchemaVersion != old.payloadSchemaVersion ||
        target.payload != old.payload || target.idempotencyKey != old.idempotencyKey ||
        target.maxAttempts != old.maxAttempts || target.createdAt != old.createdAt)
      "background job provenance is immutable",
    allowed (decide (target.updatedAt < old.updatedAt))
      "background job updated_at must be monotonic",
    allowed (rewrites old.startedAt target.startedAt ||
        rewrites old.completedAt target.completedAt)
      "background job lifecycle timestamps are write-once",
    allowed (target.state != old.state && !old.state.transitions.contains target.state)
      "invalid background job state transition",
    allowed (claims && target.attemptCount != old.attemptCount + 1)
      "background job claim must increment attempt count exactly once",
    allowed (!claims && target.attemptCount != old.attemptCount)
      "background job attempt count changes only on claim",
    allowed (beats && { target with
          leaseExpiresAt := old.leaseExpiresAt, updatedAt := old.updatedAt } != old)
      "running heartbeat may only extend its lease",
    allowed (beats && old.leaseExpiresAt.all fun oldExpiry =>
        target.leaseExpiresAt.all fun expiry => decide (expiry < oldExpiry))
      "running heartbeat cannot shorten its lease",
    allowed (requeues && !leaseExpired && !voluntaryRetry)
      "background job lease has not expired",
    allowed (requeues && (target.leaseOwner.isSome || target.leaseExpiresAt.isSome))
      "reclaimed background job must clear its lease" ]

/-- `validate_background_job_update` for a target whose persisted row is `old`. -/
def validateBackgroundJobUpdate (now : Instant) (old target : BackgroundJob) :
    Except ModelError Unit := do
  validateBackgroundJob target
  raiseFirst (backgroundJobUpdateChecks now old target)

end TamForge.Notifications
