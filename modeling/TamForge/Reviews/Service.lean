import TamForge.Agents.Roles.Reviewer
import TamForge.Evidence.Models
import TamForge.Jobs.Service
import TamForge.Today.Models

/-!
# The tables behind reviews

One store for everything that requesting and processing a review reads and
writes.  The outbox rows of activities are kept apart from those of jobs: both
live in `outbox_events`, and `feedbackKey_ne_eventKey` says that their keys
never meet there.
-/

namespace TamForge.Reviews

open Agents Evidence Jobs Learning Models
open Notifications ProofSupport Today

/-- A row of `activity_reviews`. -/
structure ActivityReview where
  id : Nat
  ownerId : Nat
  activityInstanceId : Nat
  attemptId : Nat
  rubricSlug : String
  rubricVersion : String
  model : String
  promptVersion : String
  outcome : ReviewOutcome
  evidenceStatus : String
  evidenceEventIds : List Nat
  createdAt : Instant

structure Db where
  queue : Jobs.Store
  days : List StudyDay
  definitions : List TaskDefinition
  activities : List ActivityInstance
  attempts : List Learning.Attempt
  selfReviews : List SelfReview
  configs : List ConfigSeedVersion
  statuses : List ActivityProcessingStatus
  reviews : List ActivityReview
  nextReviewId : Nat
  activityEvents : List OutboxEvent

/-- Every exception of the review service.  `sql` is any `SQLAlchemyError`,
which the public methods turn into `unavailable`; `job` is an error of the
queue, `workflow` one of the row validators. -/
inductive ReviewError
  | notFound (message : String)
  | conflict (message : String)
  | invalid (message : String)
  | unavailable (message : String)
  | job (error : JobError)
  | workflow (message : String)
  | sql

def activityKey (activity : ActivityInstance) : Nat × Nat := (activity.ownerId, activity.id)

/-- The columns of `uq_activity_reviews_owner_activity`. -/
def reviewKey (review : ActivityReview) : Nat × Nat := (review.ownerId, review.activityInstanceId)

def Db.activity? (db : Db) (ownerId activityId : Nat) : Option ActivityInstance :=
  Table.lookup activityKey db.activities (ownerId, activityId)

/-- `SELECT ... FROM activity_reviews WHERE owner_id = ? AND activity_instance_id = ?` -/
def Db.review? (db : Db) (ownerId activityId : Nat) : Option ActivityReview :=
  Table.lookup reviewKey db.reviews (ownerId, activityId)

def decided (decision : TransitionDecision) (activity : ActivityInstance) : ActivityInstance :=
  { activity with state := decision.state, optimisticVersion := decision.nextVersion }

/-- `UPDATE activity_instances SET state = ?, optimistic_version = ? WHERE id = ?` -/
def Db.updateActivity (db : Db) (activity : ActivityInstance) (decision : TransitionDecision) :
    Db :=
  { db with
    activities := Table.modify activityKey db.activities (activityKey activity)
      (decided decision) }

structure Loaded where
  activity : ActivityInstance
  day : StudyDay
  definition : TaskDefinition
  attempt : Learning.Attempt
  selfReview : SelfReview

/-- The row of one self-review in the join of `_load`. -/
def Db.join (db : Db) (activity : ActivityInstance) (selfReview : SelfReview) : Option Loaded := do
  let day ← db.days.find? fun day =>
    day.ownerId = activity.ownerId ∧ day.id = activity.studyDayId
  let definition ← db.definitions.find? fun definition =>
    definition.ownerId = activity.ownerId ∧ definition.id = activity.taskDefinitionId
  let attempt ← db.attempts.find? fun attempt =>
    attempt.ownerId = selfReview.ownerId ∧ attempt.id = selfReview.attemptId
  return ⟨activity, day, definition, attempt, selfReview⟩

/-- `_load`: the joined row with the latest self-review of the activity. -/
def Db.load (db : Db) (ownerId activityId : Nat) : Option Loaded := do
  let activity ← db.activity? ownerId activityId
  let selfReviews := db.selfReviews.filter fun review =>
    review.ownerId = ownerId ∧ review.activityInstanceId = activityId
  Table.latest (fun loaded : Loaded => loaded.selfReview.id)
    (selfReviews.filterMap (db.join activity))

def reviewIdempotencyKey (activityId attemptId : Nat) : String :=
  "claude-review-a" ++ toString activityId ++ "-t" ++ toString attemptId

/-- `feedback-ready:<review id>` -/
def feedbackKey (reviewId : Nat) : String := "feedback-ready:" ++ toString reviewId

end TamForge.Reviews

/-!
## The review service

`ReviewService` over the explicit store.  A method that commits more than once
is cut at its commits: `beginRequest` and `finishRequest` are the two
transactions of `_request`, `storeReview` is the last one of `process`.  Every
reading of the service's clock is an argument.
-/

namespace TamForge.Reviews

open Agents Evidence Jobs Learning Models
open Notifications ProofSupport Today

def reviewJobKind : String := "claude_review"

def reviewMaxAttempts : Nat := 3

def claudeAnalysisPriority : Nat := 40

def blockRubricSlug : String := "tam_block"

/-! ## Internals -/

def move (loaded : Loaded) (target : ActivityState) : Except ReviewError TransitionDecision :=
  (transition loaded.activity.state target loaded.activity.optimisticVersion
    loaded.activity.optimisticVersion loaded.day.dayType loaded.day.status).mapError
    fun error => .conflict error.message

/-- `_move` and the flush that writes it, past the row validator. -/
def advance (db : Db) (loaded : Loaded) (target : ActivityState) :
    Except ReviewError (Loaded × Db) := do
  let decision ← move loaded target
  let activity := decided decision loaded.activity
  (validateActivityUpdate loaded.activity activity).mapError fun error => .workflow error.message
  return ({ loaded with activity := activity }, db.updateActivity loaded.activity decision)

def statusKey (status : ActivityProcessingStatus) : Nat × Nat :=
  (status.ownerId, status.activityInstanceId)

/-- `_status` -/
def setStatus (db : Db) (now : Instant) (ownerId activityId : Nat) (state : ProcessingState)
    (category : Option ErrorCategory) : Except ReviewError Db := do
  match Table.lookup statusKey db.statuses (ownerId, activityId) with
  | none =>
    let row : ActivityProcessingStatus :=
      { ownerId := ownerId, activityInstanceId := activityId, state := state,
        progressLabel := state.label, lastErrorCategory := category, lastErrorDetails := none,
        createdAt := now, updatedAt := now }
    (validateProcessingStatus row).mapError fun error => .workflow error.message
    return { db with statuses := db.statuses ++ [row] }
  | some row =>
    let updated : ActivityProcessingStatus :=
      { row with
        state := state, progressLabel := state.label, lastErrorCategory := category,
        lastErrorDetails := none, updatedAt := now }
    (validateProcessingChange row updated).mapError fun error => .workflow error.message
    (validateProcessingStatus updated).mapError fun error => .workflow error.message
    return { db with
      statuses := Table.modify statusKey db.statuses (ownerId, activityId) fun _ => updated }

def config (db : Db) (ownerId : Nat) : Except ReviewError (ConfigBundle × String) :=
  match Table.latest ConfigSeedVersion.id
      (db.configs.filter fun seeded => seeded.ownerId = ownerId) with
  | none => .error (.invalid "the scoring configuration is not seeded")
  | some seeded =>
    match seeded.payload with
    | .error message =>
      .error (.invalid ("the seeded configuration has no block rubric: " ++ message))
    | .ok bundle =>
      match bundle.rubric blockRubricSlug with
      | none => .error (.invalid "the seeded configuration has no block rubric: 'tam_block'")
      | some _ => .ok (bundle, seeded.versionKey)

/-! ## Queueing -/

/-- The rows that `enqueue_pending` selects, as owner and activity. -/
def pendingRows (db : Db) (limit : Nat) : List (Nat × Nat) :=
  let rows := (db.activities.filter fun activity =>
      activity.state = .selfReviewComplete).flatMap fun activity =>
    (db.attempts.filter fun attempt => attempt.ownerId = activity.ownerId ∧
      attempt.activityInstanceId = activity.id ∧ attempt.attemptKind ≠ .attemptB).map
      fun _ => (activity.ownerId, activity.id)
  (rows.insertionSort fun a b => a.2 ≤ b.2).take limit

def pendingJob (db : Db) (ownerId : Nat) (key : String) : Bool :=
  db.queue.jobs.any fun job => job.ownerId == ownerId && job.idempotencyKey == key &&
    (job.state == .queued || job.state == .running)

def declined (db : Db) (strict : Bool) (error : ReviewError) :
    Except ReviewError (Option Loaded × Db) :=
  if strict then .error error else .ok (none, db)

/-- The first transaction of `_request`.  It ends the request, or hands the
loaded attempt to the second one. -/
def beginRequest (db : Db) (now : Instant) (ownerId activityId : Nat) (strict : Bool) :
    Except ReviewError (Option Loaded × Db) :=
  match db.load ownerId activityId with
  | none => declined db strict (.notFound "the activity was not found")
  | some loaded =>
    if (db.review? ownerId activityId).isSome then
      declined db strict (.conflict "the activity already has a review")
    else if loaded.activity.state ≠ .selfReviewComplete ∧
        loaded.activity.state ≠ .aiProcessing then
      declined db strict (.conflict "a review needs a committed, self-reviewed attempt")
    else if pendingJob db ownerId (reviewIdempotencyKey activityId loaded.attempt.id) ∧
        strict = false then
      .ok (none, db)
    else do
      let db ← if loaded.activity.state = .selfReviewComplete then
          Prod.snd <$> advance db loaded .aiProcessing
        else
          pure db
      let db ← setStatus db now ownerId activityId .analyzing none
      return (some loaded, db)

def reviewCommand (loaded : Loaded) (availableAt : Instant) : EnqueueJobCommand where
  kind := reviewJobKind
  payload := {
    subjectId := loaded.activity.id
    relatedId := some loaded.attempt.id
    subjectId_pos := loaded.activity.id_pos
    relatedId_pos := by simp [loaded.attempt.id_pos] }
  priority := claudeAnalysisPriority
  availableAt := availableAt
  maxAttempts := reviewMaxAttempts
  kind_slug := by decide
  priority_le := by decide
  maxAttempts_pos := by decide
  maxAttempts_le := by decide

/-- The second transaction of `_request`.  `now` is the repository's clock. -/
def finishRequest (db : Db) (availableAt now : Instant) (ownerId : Nat) (loaded : Loaded) :
    Except ReviewError (JobResponse × Db) :=
  match JobService.enqueue db.queue now ownerId (reviewCommand loaded availableAt)
      (reviewIdempotencyKey loaded.activity.id loaded.attempt.id) with
  | .error error => .error (.job error)
  | .ok (result, queue) => .ok (result.job, { db with queue := queue })

/-! ## Storing a review -/

/-- What `process` has computed before its last transaction. -/
structure ReviewDraft where
  rubricSlug : String
  rubricVersion : String
  model : String
  outcome : ReviewOutcome
  evidenceStatus : String
  evidenceEventIds : List Nat

def newReview (id ownerId activityId attemptId : Nat) (now : Instant) (draft : ReviewDraft) :
    ActivityReview where
  id := id
  ownerId := ownerId
  activityInstanceId := activityId
  attemptId := attemptId
  rubricSlug := draft.rubricSlug
  rubricVersion := draft.rubricVersion
  model := draft.model
  promptVersion := reviewPromptVersion
  outcome := draft.outcome
  evidenceStatus := draft.evidenceStatus
  evidenceEventIds := draft.evidenceEventIds
  createdAt := now

/-- Insert a review: the identity column and `uq_activity_reviews_owner_activity`. -/
def insertReview (db : Db) (review : ActivityReview) : Except ReviewError Db := do
  raiseFirst [
    (decide (bigintMax < review.id), .sql),
    ((db.review? review.ownerId review.activityInstanceId).isSome, .sql)]
  return { db with reviews := db.reviews ++ [review], nextReviewId := db.nextReviewId + 1 }

/-- Move a reviewed activity on to `feedback_ready`, through `ai_processing`. -/
def settle (db : Db) (loaded : Loaded) : Except ReviewError Db :=
  match loaded.activity.state with
  | .selfReviewComplete => do
      let (loaded, db) ← advance db loaded .aiProcessing
      Prod.snd <$> advance db loaded .feedbackReady
  | .aiProcessing => Prod.snd <$> advance db loaded .feedbackReady
  | _ => .ok db

/-- The `activity.feedback_ready` event of a review. -/
def feedbackEvent (id ownerId activityId reviewId : Nat) (now : Instant) : OutboxEvent where
  id := id
  ownerId := ownerId
  aggregateType := "activity"
  aggregateId := activityId
  eventType := "activity.feedback_ready"
  payloadSchemaVersion := 1
  payload := { schemaVersion := 1, subjectId := activityId, relatedId := some reviewId }
  occurredAt := now
  publishedAt := none
  attempts := 0
  idempotencyKey := feedbackKey reviewId

def announceFeedback (db : Db) (now : Instant) (ownerId activityId reviewId : Nat) :
    Except ReviewError Db := do
  let event := feedbackEvent db.queue.nextEventId ownerId activityId reviewId now
  raiseFirst [
    (!validateReferencePayloadV1 event.payload, .workflow "structured payload is invalid"),
    (!safeKey event.idempotencyKey, .sql),
    (db.activityEvents.any fun other => other.ownerId == ownerId &&
      other.idempotencyKey == event.idempotencyKey, .sql)]
  return { db with
    activityEvents := db.activityEvents ++ [event]
    queue := { db.queue with nextEventId := db.queue.nextEventId + 1 } }

/-- The last transaction of `process`. -/
def storeReview (db : Db) (now : Instant) (ownerId activityId : Nat) (draft : ReviewDraft) :
    Except ReviewError (ActivityReview × Db) :=
  match db.load ownerId activityId with
  | none => .error (.invalid "the activity vanished while it was being reviewed")
  | some loaded => do
      let review := newReview db.nextReviewId ownerId activityId loaded.attempt.id now draft
      let db ← insertReview db review
      let db ← settle db loaded
      let db ← setStatus db now ownerId activityId .ready none
      let db ← announceFeedback db now ownerId activityId review.id
      return (review, db)

/-- `mark_failed`.  It writes the category without any details, which the row
validator refuses, so it never commits. -/
def markFailed (db : Db) (now : Instant) (ownerId activityId : Nat) (category : ErrorCategory) :
    Except ReviewError Db :=
  setStatus db now ownerId activityId .needsAttention (some category)

/-! ## Reading -/

inductive ReviewStatus
  | notRequested | queued | running | ready | needsAttention

structure ReviewedDimensionResponse where
  slug : String
  name : String
  score : Rat
  maximum : Rat
  rationale : String
  evidence : String

structure ActivityReviewResponse where
  activityId : Nat
  status : ReviewStatus
  failureCategory : Option ErrorCategory := none
  reviewId : Option Nat := none
  attemptId : Option Nat := none
  rubricSlug : Option String := none
  rubricVersion : Option String := none
  model : Option String := none
  verdict : Option String := none
  dimensions : List ReviewedDimensionResponse := []
  strengths : List (String × String) := []
  corrections : List (String × String) := []
  nextPractice : Option String := none
  evidenceStatus : Option String := none
  evidenceEventIds : List Nat := []
  createdAt : Option Instant := none

/-- `_response` without a review: where its job stands. -/
def jobResponse (activityId : Nat) : Option BackgroundJob → ActivityReviewResponse
  | none => { activityId := activityId, status := .notRequested }
  | some job =>
    match job.state with
    | .queued => { activityId := activityId, status := .queued }
    | .running => { activityId := activityId, status := .running }
    | .succeeded => { activityId := activityId, status := .running }
    | .failed | .canceled =>
      { activityId := activityId, status := .needsAttention,
        failureCategory := job.lastErrorCategory }

def response (activityId : Nat) (review : Option ActivityReview) (job : Option BackgroundJob)
    (bundle : Option ConfigBundle) : ActivityReviewResponse :=
  match review with
  | none => jobResponse activityId job
  | some review =>
    let dimensions := ((bundle.bind fun bundle => bundle.rubric review.rubricSlug).map
      RubricConfig.dimensions).getD []
    let named (slug : String) : String × Rat :=
      ((dimensions.find? fun dimension => dimension.slug = slug).map
        fun dimension => (dimension.name, dimension.maximum)).getD (slug, 4)
    { activityId := activityId
      status := .ready
      reviewId := some review.id
      attemptId := some review.attemptId
      rubricSlug := some review.rubricSlug
      rubricVersion := some review.rubricVersion
      model := some review.model
      verdict := some review.outcome.verdict
      dimensions := review.outcome.dimensions.map fun item =>
        { slug := item.slug, name := (named item.slug).1, score := item.score,
          maximum := (named item.slug).2, rationale := item.rationale,
          evidence := item.evidence }
      strengths := review.outcome.strengths.map fun finding =>
        (finding.statement, finding.instruction)
      corrections := review.outcome.corrections.map fun finding =>
        (finding.statement, finding.instruction)
      nextPractice := some review.outcome.nextPractice
      evidenceStatus := some review.evidenceStatus
      evidenceEventIds := review.evidenceEventIds
      createdAt := some review.createdAt }

/-- The job that `read` reports: the latest review job of the activity. -/
def reviewJob? (queue : Jobs.Store) (ownerId activityId : Nat) : Option BackgroundJob :=
  Table.latest BackgroundJob.id (queue.jobs.filter fun job => job.ownerId = ownerId ∧
    job.kind = reviewJobKind ∧ job.payload.subjectId = activityId)

def read (db : Db) (ownerId activityId : Nat) : Except ReviewError ActivityReviewResponse :=
  match db.activity? ownerId activityId with
  | none => .error (.notFound "the activity was not found")
  | some _ =>
    let review := db.review? ownerId activityId
    let bundle := review.bind fun _ => ((config db ownerId).map Prod.fst).toOption
    .ok (response activityId review (reviewJob? db.queue ownerId activityId) bundle)

/-! ## Requesting a review -/

/-- The clock readings of one request: for the processing status, for the
command, and the repository's own. -/
structure Readings where
  stamped : Instant
  availableAt : Instant
  stored : Instant

/-- `except SQLAlchemyError` of the public methods. -/
def translated : ReviewError → ReviewError
  | .sql | .job (.uniqueViolation _) | .job (.checkViolation _) | .job .storageUnavailable =>
    .unavailable "the review store is unavailable"
  | error => error

/-- `request`.  What its transactions committed stays even when it raises. -/
def request (db : Db) (readings : Readings) (ownerId activityId : Nat) :
    Except ReviewError ActivityReviewResponse × Db :=
  match beginRequest db readings.stamped ownerId activityId true with
  | .error error => (.error (translated error), db)
  | .ok (none, db) => (read db ownerId activityId, db)
  | .ok (some loaded, db) =>
    match finishRequest db readings.availableAt readings.stored ownerId loaded with
    | .error error => (.error (translated error), db)
    | .ok (_, db) => (read db ownerId activityId, db)

end TamForge.Reviews
