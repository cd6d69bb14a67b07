import Mathlib.Data.List.Sort
import TamForge.Jobs.Schemas
import TamForge.ProofSupport.Run
import TamForge.ProofSupport.Table

/-!
# The transactional job repository

`SqlAlchemyJobRepository` over an explicit store.  Every command is a function
from the store to its result and the new store; when it raises, the
transaction is rolled back and the store stays as it was.  Rows that another
open transaction has locked are skipped by `claim` and `reclaimExpired`, so
both take the identifiers of the rows locked elsewhere.
-/

namespace TamForge.Jobs

open Models Notifications ProofSupport

structure Store where
  owners : List Nat
  jobs : List BackgroundJob
  nextJobId : Nat
  outbox : List OutboxEvent
  nextEventId : Nat
deriving DecidableEq

/-- No job and no event yet; identities start at one. -/
def Store.empty (owners : List Nat) : Store where
  owners := owners
  jobs := []
  nextJobId := 1
  outbox := []
  nextEventId := 1

namespace Store

def job? (s : Store) (id : Nat) : Option BackgroundJob :=
  Table.lookup BackgroundJob.id s.jobs id

/-- `SELECT ... WHERE owner_id = ? AND idempotency_key = ?` -/
def jobByKey? (s : Store) (ownerId : Nat) (key : String) : Option BackgroundJob :=
  s.jobs.find? fun job => job.ownerId == ownerId && job.idempotencyKey == key

/-- `UPDATE background_jobs SET ... WHERE id = ?` -/
def updateJob (s : Store) (id : Nat) (values : BackgroundJob → BackgroundJob) : Store :=
  { s with jobs := Table.modify BackgroundJob.id s.jobs id values }

def reload (s : Store) (id : Nat) : Except JobError BackgroundJob :=
  match s.job? id with
  | none => .error (.notFound "job was not found")
  | some job => .ok job

/-- `INSERT INTO background_jobs` with the attribute listener on `payload`, the
`before_insert` validator, the identity column and the key constraints. -/
def insertJob (s : Store) (job : BackgroundJob) : Except JobError Store := do
  raiseFirst [(!validateReferencePayloadV1 job.payload,
    .model (.notificationContract "structured payload is invalid"))]
  (validateBackgroundJob job).mapError .model
  raiseFirst [
    (decide (bigintMax < job.id), .storageUnavailable),
    (!safeKey job.idempotencyKey, .checkViolation "idempotency_key_safe"),
    ((s.jobByKey? job.ownerId job.idempotencyKey).isSome,
      .uniqueViolation "uq_background_jobs_owner_idempotency")]
  return { s with jobs := s.jobs ++ [job], nextJobId := s.nextJobId + 1 }

/-- The outbox key `job:<id>:<event_type>:<attempt_count>`. -/
def eventKey (id : Nat) (event : JobEvent) (attemptCount : Nat) : String :=
  "job:" ++ toString id ++ ":" ++ event.text ++ ":" ++ toString attemptCount

/-- The outbox row that `_status_event` adds. -/
def eventRow (id : Nat) (job : BackgroundJob) (event : JobEvent) (now : Instant) :
    OutboxEvent where
  id := id
  ownerId := job.ownerId
  aggregateType := "background_job"
  aggregateId := job.id
  eventType := event.text
  payloadSchemaVersion := 1
  payload := { schemaVersion := 1, subjectId := job.id, relatedId := none }
  occurredAt := now
  publishedAt := none
  attempts := 0
  idempotencyKey := eventKey job.id event job.attemptCount

def emit (s : Store) (job : BackgroundJob) (event : JobEvent) (now : Instant) : Store :=
  { s with
    outbox := s.outbox ++ [eventRow s.nextEventId job event now]
    nextEventId := s.nextEventId + 1 }

/-- `_status_event`: the listener on `payload`, then the constraints of
`outbox_events`. -/
def statusEvent (s : Store) (job : BackgroundJob) (event : JobEvent) (now : Instant) :
    Except JobError Store := do
  let row := eventRow s.nextEventId job event now
  raiseFirst [
    (!validateReferencePayloadV1 row.payload,
      .model (.notificationContract "structured payload is invalid")),
    (!safeKey row.idempotencyKey, .checkViolation "idempotency_key_safe"),
    (s.outbox.any fun e =>
        e.ownerId == row.ownerId && e.idempotencyKey == row.idempotencyKey,
      .uniqueViolation "uq_outbox_events_owner_idempotency")]
  return s.emit job event now

end Store

/-- `now + timedelta(seconds=n)` -/
def addSeconds (now : Instant) (n : Nat) : Except JobError Instant :=
  if datetimeMax < now + seconds n then .error .overflow else .ok (now + seconds n)

def response (job : BackgroundJob) : JobResponse where
  id := job.id
  ownerId := job.ownerId
  kind := job.kind
  payload := job.payload
  priority := job.priority
  state := job.state
  idempotencyKey := job.idempotencyKey
  availableAt := job.availableAt
  attemptCount := job.attemptCount
  maxAttempts := job.maxAttempts
  leaseOwner := job.leaseOwner
  leaseExpiresAt := job.leaseExpiresAt
  lastErrorCategory := job.lastErrorCategory
  lastErrorDetails := job.lastErrorDetails
  createdAt := job.createdAt
  updatedAt := job.updatedAt
  startedAt := job.startedAt
  completedAt := job.completedAt

def sameEnqueue (job : BackgroundJob) (command : EnqueueJobCommand)
    (payload : PayloadFields) : Bool :=
  job.kind == command.kind && job.payload == payload &&
    job.priority == command.priority && job.availableAt == command.availableAt &&
    job.maxAttempts == command.maxAttempts

/-- The row that `enqueue` adds. -/
def newJob (id ownerId : Nat) (command : EnqueueJobCommand) (idempotencyKey : String)
    (now : Instant) : BackgroundJob where
  id := id
  ownerId := ownerId
  kind := command.kind
  payloadSchemaVersion := 1
  payload := command.payload.modelDump
  priority := command.priority
  state := .queued
  idempotencyKey := idempotencyKey
  availableAt := command.availableAt
  attemptCount := 0
  maxAttempts := command.maxAttempts
  leaseOwner := none
  leaseExpiresAt := none
  lastErrorCategory := none
  lastErrorDetails := none
  createdAt := now
  updatedAt := now
  startedAt := none
  completedAt := none

def enqueue (s : Store) (now : Instant) (ownerId : Nat) (command : EnqueueJobCommand)
    (idempotencyKey : String) : Except JobError (EnqueueResult × Store) := do
  let payload := command.payload.modelDump
  if ownerId ∉ s.owners then throw (.notFound "job owner was not found")
  match s.jobByKey? ownerId idempotencyKey with
  | some existing =>
    if sameEnqueue existing command payload then
      return ({ job := response existing, replayed := true }, s)
    else
      throw (.conflict "Idempotency-Key was reused for another job")
  | none =>
    let job := newJob s.nextJobId ownerId command idempotencyKey now
    let s ← s.insertJob job
    let s ← s.statusEvent job .queued now
    return ({ job := response job, replayed := false }, s)

/-- `ORDER BY priority DESC, available_at, id` -/
def claimsBefore (a b : BackgroundJob) : Prop :=
  b.priority < a.priority ∨ b.priority = a.priority ∧
    (a.availableAt < b.availableAt ∨ a.availableAt = b.availableAt ∧ a.id ≤ b.id)

instance : DecidableRel claimsBefore := fun a b => by
  unfold claimsBefore
  infer_instance

/-- The `WHERE` clauses of `claim`. -/
def claimable (now : Instant) (command : ClaimJobCommand) (job : BackgroundJob) : Bool :=
  job.state == .queued && decide (job.availableAt ≤ now) &&
    decide (job.attemptCount < job.maxAttempts) && command.kinds.contains job.kind

def claimed (now : Instant) (workerId : String) (expiresAt : Instant)
    (job : BackgroundJob) : BackgroundJob :=
  { job with
    state := .running
    attemptCount := job.attemptCount + 1
    leaseOwner := some workerId
    leaseExpiresAt := some expiresAt
    lastErrorCategory := none
    lastErrorDetails := none
    startedAt := some (job.startedAt.getD now)
    updatedAt := now }

def claim (s : Store) (now : Instant) (command : ClaimJobCommand) (locked : List Nat) :
    Except JobError (Option JobResponse × Store) := do
  let candidates := s.jobs.filter fun job =>
    claimable now command job && !locked.contains job.id
  match (candidates.insertionSort claimsBefore).head? with
  | none => return (none, s)
  | some job =>
    let expiresAt ← addSeconds now command.leaseSeconds
    let s := s.updateJob job.id (claimed now command.workerId expiresAt)
    let current ← s.reload job.id
    let s ← s.statusEvent current .running now
    return (some (response current), s)

def runningJob (s : Store) (now : Instant) (jobId : Nat) (workerId : String) :
    Except JobError BackgroundJob :=
  match s.job? jobId with
  | none => .error (.notFound "job was not found")
  | some job =>
    if job.state ≠ .running ∨ job.leaseOwner ≠ some workerId then
      .error (.conflict "worker does not own the running job lease")
    else if job.leaseExpiresAt.all fun expiry => decide (expiry ≤ now) then
      .error (.conflict "job lease has expired")
    else
      .ok job

def extended (now : Instant) (expiresAt : Instant) (job : BackgroundJob) : BackgroundJob :=
  { job with leaseExpiresAt := some expiresAt, updatedAt := now }

def heartbeat (s : Store) (now : Instant) (jobId : Nat) (command : HeartbeatJobCommand) :
    Except JobError (JobResponse × Store) := do
  let job ← runningJob s now jobId command.workerId
  let leaseBase := max now (job.leaseExpiresAt.getD now)
  let expiresAt ← addSeconds leaseBase command.leaseSeconds
  let s := s.updateJob job.id (extended now expiresAt)
  let current ← s.reload job.id
  return (response current, s)

def completed (now : Instant) (job : BackgroundJob) : BackgroundJob :=
  { job with
    state := .succeeded
    leaseOwner := none
    leaseExpiresAt := none
    completedAt := some now
    updatedAt := now }

def complete (s : Store) (now : Instant) (jobId : Nat) (command : CompleteJobCommand) :
    Except JobError (JobResponse × Store) := do
  let job ← runningJob s now jobId command.workerId
  let s := s.updateJob job.id (completed now)
  let current ← s.reload job.id
  let s ← s.statusEvent current .succeeded now
  return (response current, s)

def errorDetails (attempt : Nat) (command : RetryJobCommand) : ErrorDetails where
  schemaVersion := 1
  attempt := some attempt
  retryAfterSeconds := command.failure.retryAfterSeconds
  httpStatus := command.failure.httpStatus

/-- Back to the queue, with the reason: the write that `retry` and
`reclaim_expired` share. -/
def requeued (now availableAt : Instant) (category : ErrorCategory)
    (details : ErrorDetails) (job : BackgroundJob) : BackgroundJob :=
  { job with
    state := .queued
    availableAt := availableAt
    leaseOwner := none
    leaseExpiresAt := none
    lastErrorCategory := some category
    lastErrorDetails := some details
    updatedAt := now }

def parked (now : Instant) (category : ErrorCategory) (details : ErrorDetails)
    (job : BackgroundJob) : BackgroundJob :=
  { job with
    state := .failed
    leaseOwner := none
    leaseExpiresAt := none
    lastErrorCategory := some category
    lastErrorDetails := some details
    completedAt := some now
    updatedAt := now }

def retryDelay (attemptCount : Nat) (failure : JobFailure) : Nat :=
  failure.retryAfterSeconds.getD (min 300 (5 * 2 ^ (attemptCount - 1)))

def retry (s : Store) (now : Instant) (jobId : Nat) (command : RetryJobCommand) :
    Except JobError (RetryResult × Store) := do
  let job ← runningJob s now jobId command.workerId
  let disposition ← retryDisposition job.attemptCount job.maxAttempts
    command.failure.category
  let details := errorDetails job.attemptCount command
  match disposition with
  | .retryWait =>
    let availableAt ← addSeconds now (retryDelay job.attemptCount command.failure)
    let s := s.updateJob job.id
      (requeued now availableAt command.failure.category details)
    let current ← s.reload job.id
    let s ← s.statusEvent current .retryWait now
    return ({ job := response current, disposition := disposition }, s)
  | .needsAttention =>
    let s := s.updateJob job.id (parked now command.failure.category details)
    let current ← s.reload job.id
    let s ← s.statusEvent current .needsAttention now
    return ({ job := response current, disposition := disposition }, s)

def canceled (now : Instant) (job : BackgroundJob) : BackgroundJob :=
  { job with
    state := .canceled
    leaseOwner := none
    leaseExpiresAt := none
    lastErrorCategory := none
    lastErrorDetails := none
    completedAt := some now
    updatedAt := now }

def cancel (s : Store) (now : Instant) (ownerId jobId : Nat) :
    Except JobError (JobResponse × Store) := do
  match (s.job? jobId).filter fun job => job.ownerId == ownerId with
  | none => throw (.notFound "job was not found")
  | some job =>
    match job.state with
    | .canceled => return (response job, s)
    | .succeeded | .failed => throw (.conflict "terminal job cannot be canceled")
    | .queued | .running =>
      let s := s.updateJob job.id (canceled now)
      let current ← s.reload job.id
      let s ← s.statusEvent current .canceled now
      return (response current, s)

/-- `ORDER BY lease_expires_at, id`.  Only rows with a lease are compared. -/
def expiresBefore (a b : BackgroundJob) : Prop :=
  a.leaseExpiresAt.getD 0 < b.leaseExpiresAt.getD 0 ∨
    a.leaseExpiresAt.getD 0 = b.leaseExpiresAt.getD 0 ∧ a.id ≤ b.id

instance : DecidableRel expiresBefore := fun a b => by
  unfold expiresBefore
  infer_instance

/-- The `WHERE` clauses of `reclaim_expired`. -/
def reclaimable (now : Instant) (job : BackgroundJob) : Bool :=
  job.state == .running && job.leaseExpiresAt.any fun expiry => decide (expiry ≤ now)

/-- The diagnostics that `reclaim_expired` stores. -/
def reclaimDetails (attempt : Nat) : ErrorDetails where
  schemaVersion := 1
  attempt := some attempt
  retryAfterSeconds := none
  httpStatus := none

/-- One iteration of the loop of `reclaim_expired`. -/
def reclaimJob (now : Instant) (progress : ReclaimResult × Store) (job : BackgroundJob) :
    Except JobError (ReclaimResult × Store) := do
  let (result, s) := progress
  let details := reclaimDetails job.attemptCount
  if job.attemptCount < job.maxAttempts then
    let s := s.updateJob job.id (requeued now now .transientDependency details)
    let current ← s.reload job.id
    let s ← s.statusEvent current .retryWait now
    return ({ result with retriedJobIds := result.retriedJobIds ++ [job.id] }, s)
  else
    let s := s.updateJob job.id (parked now .processingFailure details)
    let current ← s.reload job.id
    let s ← s.statusEvent current .needsAttention now
    return ({ result with
      needsAttentionJobIds := result.needsAttentionJobIds ++ [job.id] }, s)

/-- The rows that `reclaim_expired` locks, in the order it visits them. -/
def reclaimBatch (s : Store) (now : Instant) (limit : Nat) (locked : List Nat) :
    List BackgroundJob :=
  ((s.jobs.filter fun job => reclaimable now job && !locked.contains job.id).insertionSort
    expiresBefore).take limit

def reclaimExpired (s : Store) (now : Instant) (limit : Nat) (locked : List Nat) :
    Except JobError (ReclaimResult × Store) :=
  (reclaimBatch s now limit locked).foldlM (reclaimJob now)
    ({ retriedJobIds := [], needsAttentionJobIds := [] }, s)

end TamForge.Jobs

/-!
## Runs of the queue

A call is one repository command executed at a clock reading.  Any number of
workers, owners and sweeps issue calls in any order; the only thing their
runs share is the store and a clock that does not go back.
-/

namespace TamForge.Jobs

open Models Notifications ProofSupport

inductive Command
  | enqueue (ownerId : Nat) (command : EnqueueJobCommand) (idempotencyKey : String)
  | claim (command : ClaimJobCommand) (locked : List Nat)
  | heartbeat (jobId : Nat) (command : HeartbeatJobCommand)
  | complete (jobId : Nat) (command : CompleteJobCommand)
  | retry (jobId : Nat) (command : RetryJobCommand)
  | cancel (ownerId jobId : Nat)
  | reclaimExpired (limit : Nat) (locked : List Nat)

/-- What a call returns or raises. -/
inductive Outcome
  | enqueued (result : EnqueueResult)
  | claimed (job : Option JobResponse)
  | extended (job : JobResponse)
  | completed (job : JobResponse)
  | retried (result : RetryResult)
  | canceled (job : JobResponse)
  | reclaimed (result : ReclaimResult)
  | raised (error : JobError)
deriving DecidableEq

def transact {α : Type} (s : Store) (returned : α → Outcome) :
    Except JobError (α × Store) → Outcome × Store
  | .ok (value, after) => (returned value, after)
  | .error error => (.raised error, s)

def exec (s : Store) (now : Instant) : Command → Outcome × Store
  | .enqueue ownerId command key =>
    transact s .enqueued (enqueue s now ownerId command key)
  | .claim command locked => transact s .claimed (claim s now command locked)
  | .heartbeat jobId command => transact s .extended (heartbeat s now jobId command)
  | .complete jobId command => transact s .completed (complete s now jobId command)
  | .retry jobId command => transact s .retried (retry s now jobId command)
  | .cancel ownerId jobId => transact s .canceled (cancel s now ownerId jobId)
  | .reclaimExpired limit locked =>
    transact s .reclaimed (reclaimExpired s now limit locked)

/-- The store together with the last clock reading. -/
structure World where
  store : Store
  clock : Instant

structure Call where
  now : Instant
  command : Command
  outcome : Outcome

/-- One call: its transaction commits as `exec` says, or the database refuses
it and nothing changes. -/
def Step (w : World) (call : Call) (w' : World) : Prop :=
  w.clock ≤ call.now ∧ w'.clock = call.now ∧
    (exec w.store call.now call.command = (call.outcome, w'.store) ∨
      call.outcome = .raised .storageUnavailable ∧ w'.store = w.store)

def QueueRun (owners : List Nat) (start : Instant)
    (trace : List (Transition World Call)) (w : World) : Prop :=
  Run Step ⟨Store.empty owners, start⟩ trace w

def execAll (w : World) : List (Instant × Command) → List (Transition World Call) × World
  | [] => ([], w)
  | (now, command) :: rest =>
    let (outcome, store) := exec w.store now command
    let w' : World := ⟨store, now⟩
    let (trace, final) := execAll w' rest
    (⟨w, ⟨now, command, outcome⟩, w'⟩ :: trace, final)

theorem run_execAll (w : World) (calls : List (Instant × Command))
    (hclk : (w.clock :: calls.map Prod.fst).Pairwise (· ≤ ·)) :
    Run Step w (execAll w calls).1 (execAll w calls).2 := by
  induction calls generalizing w with
  | nil => exact Run.refl
  | cons call rest ih =>
    obtain ⟨now, command⟩ := call
    rw [List.map_cons, List.pairwise_cons] at hclk
    have hfst : Step w ⟨now, command, (exec w.store now command).1⟩
        ⟨(exec w.store now command).2, now⟩ :=
      ⟨hclk.1 now (by simp), rfl, Or.inl rfl⟩
    exact (Run.single hfst).append (ih _ hclk.2)

/-! ## Sample commands -/

theorem unrelated_pos : ∀ id ∈ (none : Option Nat), 0 < id := by simp

/-- A review job of owner `1`, available from the epoch on. -/
def sampleEnqueue : EnqueueJobCommand where
  kind := "claude_review"
  payload := { subjectId := 7, subjectId_pos := by decide, relatedId_pos := unrelated_pos }
  priority := 50
  availableAt := 0
  kind_slug := by decide
  priority_le := by decide
  maxAttempts_pos := by decide
  maxAttempts_le := by decide

def sampleClaim : ClaimJobCommand where
  workerId := "worker-a"
  kinds := ["claude_review"]
  workerId_safe := by decide
  kinds_slug := by decide
  kinds_ne_nil := by decide
  kinds_length := by decide
  kinds_nodup := by decide
  leaseSeconds_ge := by decide
  leaseSeconds_le := by decide

def sampleHeartbeat : HeartbeatJobCommand where
  workerId := "worker-a"
  workerId_safe := by decide
  leaseSeconds_ge := by decide
  leaseSeconds_le := by decide

/-- A transient failure that asks for the default delay. -/
def sampleRetry : RetryJobCommand where
  workerId := "worker-a"
  failure := {
    category := .transientDependency
    retryAfterSeconds_le := by simp
    httpStatus_bounds := by simp }
  workerId_safe := by decide

def sampleComplete : CompleteJobCommand where
  workerId := "worker-a"
  workerId_safe := by decide

/-- The calls of `calls` on an empty store with the single owner `1`. -/
def sampleRun (calls : List (Instant × Command)) : List (Transition World Call) × World :=
  execAll ⟨Store.empty [1], 0⟩ calls

theorem queueRun_sampleRun (calls : List (Instant × Command))
    (hclk : (0 :: calls.map Prod.fst).Pairwise (· ≤ ·)) :
    QueueRun [1] 0 (sampleRun calls).1 (sampleRun calls).2 :=
  run_execAll ⟨Store.empty [1], 0⟩ calls hclk

end TamForge.Jobs
