import TamForge.Notifications.Models

/-!
# Commands and results of the durable queue

Each command carries the bounds that its pydantic model enforces, so a command
outside them cannot be built.
-/

namespace TamForge.Jobs

open Models Notifications

structure ReferencePayload where
  subjectId : Nat
  relatedId : Option Nat := none
  subjectId_pos : 0 < subjectId
  relatedId_pos : ∀ related ∈ relatedId, 0 < related

/-- `model_dump(mode="json", exclude_none=True)` -/
def ReferencePayload.modelDump (payload : ReferencePayload) : PayloadFields where
  schemaVersion := 1
  subjectId := payload.subjectId
  relatedId := payload.relatedId

structure EnqueueJobCommand where
  kind : String
  payload : ReferencePayload
  priority : Nat
  availableAt : Instant
  maxAttempts : Nat := 3
  kind_slug : slug kind = true
  priority_le : priority ≤ 100
  maxAttempts_pos : 1 ≤ maxAttempts
  maxAttempts_le : maxAttempts ≤ 100

structure ClaimJobCommand where
  workerId : String
  kinds : List String
  leaseSeconds : Nat := 120
  workerId_safe : safeKey workerId = true
  kinds_slug : ∀ kind ∈ kinds, slug kind = true
  kinds_ne_nil : kinds ≠ []
  kinds_length : kinds.length ≤ 32
  kinds_nodup : kinds.Nodup
  leaseSeconds_ge : 5 ≤ leaseSeconds
  leaseSeconds_le : leaseSeconds ≤ 3600

structure HeartbeatJobCommand where
  workerId : String
  leaseSeconds : Nat := 120
  workerId_safe : safeKey workerId = true
  leaseSeconds_ge : 5 ≤ leaseSeconds
  leaseSeconds_le : leaseSeconds ≤ 3600

structure JobFailure where
  category : ErrorCategory
  retryAfterSeconds : Option Nat := none
  httpStatus : Option Nat := none
  retryAfterSeconds_le : ∀ delay ∈ retryAfterSeconds, delay ≤ 86400
  httpStatus_bounds : ∀ status ∈ httpStatus, 100 ≤ status ∧ status ≤ 599

structure RetryJobCommand where
  workerId : String
  failure : JobFailure
  workerId_safe : safeKey workerId = true

structure CompleteJobCommand where
  workerId : String
  workerId_safe : safeKey workerId = true

structure JobResponse where
  id : Nat
  ownerId : Nat
  kind : String
  payload : PayloadFields
  priority : Nat
  state : JobState
  idempotencyKey : String
  availableAt : Instant
  attemptCount : Nat
  maxAttempts : Nat
  leaseOwner : Option String
  leaseExpiresAt : Option Instant
  lastErrorCategory : Option ErrorCategory
  lastErrorDetails : Option ErrorDetails
  createdAt : Instant
  updatedAt : Instant
  startedAt : Option Instant
  completedAt : Option Instant
deriving DecidableEq

structure EnqueueResult where
  job : JobResponse
  replayed : Bool
deriving DecidableEq

inductive RetryDisposition
  | retryWait | needsAttention
deriving DecidableEq

structure RetryResult where
  job : JobResponse
  disposition : RetryDisposition
deriving DecidableEq

structure ReclaimResult where
  retriedJobIds : List Nat
  needsAttentionJobIds : List Nat
deriving DecidableEq

/-- Every exception a queue command can end with.  `uniqueViolation` names the
violated constraint, `checkViolation` a failed `CHECK`, `overflow` is
`datetime` arithmetic past year 9999, and `storageUnavailable` any other
database failure; all of them roll the transaction back. -/
inductive JobError
  | notFound (message : String)
  | conflict (message : String)
  | invalidRequest (message : String)
  | policy (message : String)
  | model (error : ModelError)
  | uniqueViolation (constraint : String)
  | checkViolation (constraint : String)
  | overflow
  | storageUnavailable
deriving DecidableEq

/-- `retry_disposition`.  That the category is known is its type. -/
def retryDisposition (attemptCount maxAttempts : Nat) (category : ErrorCategory) :
    Except JobError RetryDisposition :=
  if ¬(1 ≤ attemptCount ∧ attemptCount ≤ maxAttempts ∧ maxAttempts ≤ 100) then
    .error (.policy "job attempt bounds are invalid")
  else if (category = .transientDependency ∨ category = .resourceExhausted) ∧
      attemptCount < maxAttempts then
    .ok .retryWait
  else
    .ok .needsAttention

/-- The status events a job emits, under their `event_type` texts. -/
inductive JobEvent
  | queued | running | retryWait | needsAttention | succeeded | canceled
deriving DecidableEq

def JobEvent.text : JobEvent → String
  | queued => "background_job.queued"
  | running => "background_job.running"
  | retryWait => "background_job.retry_wait"
  | needsAttention => "background_job.needs_attention"
  | succeeded => "background_job.succeeded"
  | canceled => "background_job.canceled"

end TamForge.Jobs
