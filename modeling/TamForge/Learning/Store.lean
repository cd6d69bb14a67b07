import TamForge.Learning.Schemas

/-!
# The store of the activity service

The tables as one value, the queries of the service over them, and the flushes
that write validated rows.
-/

namespace TamForge.Learning.ActivityService

open Models ProofSupport Roadmaps

structure Db where
  owners : List Nat
  days : Serial StudyDayRow
  activities : Serial ActivityRow
  definitions : List TaskDefinitionRow
  timers : Serial ActivityTimerSession
  attempts : Serial AttemptRow
  artifacts : Serial Artifact
  links : Serial ActivityArtifactLink
  selfReviews : Serial SelfReviewRow
  receipts : List CommandReceipt
  coachThreads : List CoachThread

structure LockedActivity where
  activity : ActivityRow
  day : StudyDayRow
  definition : TaskDefinitionRow

/-- What a rejected statement becomes. -/
def storageUnavailable : ActivityError :=
  .unavailable "activity storage is unavailable"

namespace Db

/-! ## Queries -/

def load? (db : Db) (ownerId activityId : Nat) : Option LockedActivity := do
  let activity ← db.activities.rows.find? fun activity =>
    activity.ownerId = ownerId ∧ activity.id = activityId
  let day ← db.days.rows.find? fun day =>
    day.ownerId = activity.ownerId ∧ day.id = activity.studyDayId
  let definition ← db.definitions.find? fun definition =>
    definition.ownerId = activity.ownerId ∧ definition.id = activity.taskDefinitionId
  return ⟨activity, day, definition⟩

def load (db : Db) (ownerId activityId : Nat) : Except ActivityError LockedActivity :=
  match db.load? ownerId activityId with
  | none => .error (.notFound "activity was not found")
  | some row => .ok row

def isOpenFor (activity : ActivityRow) (timer : ActivityTimerSession) : Bool :=
  timer.ownerId == activity.ownerId && timer.activityInstanceId == activity.id &&
    timer.endedAt.isNone

def openTimer? (db : Db) (activity : ActivityRow) : Option ActivityTimerSession :=
  db.timers.rows.find? (isOpenFor activity)

def timerOfDay (db : Db) (ownerId dayId : Nat) (timer : ActivityTimerSession) : Bool :=
  db.activities.rows.any fun activity => activity.ownerId == timer.ownerId &&
    activity.id == timer.activityInstanceId && activity.ownerId == ownerId &&
    activity.studyDayId == dayId

def daySeconds (db : Db) (ownerId dayId : Nat) : Nat :=
  ((db.timers.rows.filter (db.timerOfDay ownerId dayId)).map fun timer =>
    timer.countedSeconds).sum

def activitySeconds (db : Db) (activity : ActivityRow) : Nat :=
  ((db.timers.rows.filter fun timer => timer.ownerId = activity.ownerId ∧
    timer.activityInstanceId = activity.id).map fun timer => timer.countedSeconds).sum

def attemptForActivity? (db : Db) (ownerId activityId : Nat) : Option AttemptRow :=
  db.attempts.rows.find? fun attempt =>
    attempt.ownerId = ownerId ∧ attempt.activityInstanceId = activityId

def attempt? (db : Db) (ownerId attemptId : Nat) : Option AttemptRow :=
  db.attempts.rows.find? fun attempt => attempt.ownerId = ownerId ∧ attempt.id = attemptId

def receipt? (db : Db) (ownerId : Nat) (scope : Scope) (key : String) :
    Option CommandReceipt :=
  db.receipts.find? fun receipt => receipt.ownerId = ownerId ∧
    receipt.commandScope = scope ∧ receipt.idempotencyKey = key

/-- `_artifact_by_hash` for a digest that is a SHA-256. -/
def artifactByHash? (db : Db) (ownerId : Nat) (sha256 : String) : Option Artifact :=
  db.artifacts.rows.find? fun artifact =>
    artifact.ownerId = ownerId ∧ artifact.contentHash = sha256

def artifactById? (db : Db) (ownerId artifactId : Nat) : Option Artifact :=
  db.artifacts.rows.find? fun artifact =>
    artifact.ownerId = ownerId ∧ artifact.id = artifactId

/-- The artifacts of an attempt, `ORDER BY artifact_id`. -/
def attemptArtifactIds (db : Db) (ownerId activityId attemptId : Nat) : List Nat :=
  ((db.links.rows.filter fun link => link.ownerId = ownerId ∧
    link.activityInstanceId = activityId ∧ link.attemptId = some attemptId).map
      ActivityArtifactLink.artifactId).insertionSort (· ≤ ·)

/-! ## Flushes -/

def flushDay (db : Db) (old new : StudyDayRow) : Except ActivityError Db :=
  if new = old then .ok db
  else do
    (validateStudyDayUpdate old new).mapError .workflow
    raiseFirst [(!new.admissible, storageUnavailable)]
    return { db with days := db.days.replace (fun day => day.id) new }

def flushActivity (db : Db) (old new : ActivityRow) : Except ActivityError Db := do
  (validateActivityTimestamps old.toActivityInstance new.toActivityInstance).mapError .workflow
  (validateActivityUpdate old.toActivityInstance new.toActivityInstance).mapError
    fun error => .workflow error.message
  raiseFirst [(!new.admissible, storageUnavailable)]
  return { db with activities := db.activities.replace (fun activity => activity.id) new }

def flushTimer (db : Db) (old new : ActivityTimerSession) : Except ActivityError Db := do
  (validateTimerUpdate old new).mapError .workflow
  raiseFirst [(!new.admissible, storageUnavailable)]
  return { db with timers := db.timers.replace (fun timer => timer.id) new }

/-- Insert a timer past `uq_activity_timer_sessions_owner_idempotency`,
`uq_activity_timer_sessions_one_open_per_activity` and its constraints. -/
def insertTimer (db : Db) (ownerId activityId : Nat) (key : String) (state : TimerState) :
    Except ActivityError Db := do
  let timer : ActivityTimerSession :=
    { state with
      id := db.timers.next, ownerId := ownerId, activityInstanceId := activityId,
      idempotencyKey := key }
  raiseFirst [
    (db.timers.rows.any fun other => other.ownerId == ownerId && other.idempotencyKey == key,
      storageUnavailable),
    (timer.endedAt.isNone && db.timers.rows.any fun other =>
        other.activityInstanceId == activityId && other.endedAt.isNone,
      storageUnavailable),
    (!timer.admissible, storageUnavailable)]
  return { db with timers := (db.timers.insert fun _ => timer).2 }

/-- `validate_attempt_workflow` for a new attempt. -/
def validateAttempt (db : Db) (attempt : AttemptRow) : Except ActivityError Unit := do
  raiseFirst [
    ((attempt.attemptKind == .attemptB) != attempt.parentAttemptId.isSome,
      .workflow "invalid Attempt A/B relation shape"),
    (!db.activities.rows.any (fun activity => activity.ownerId == attempt.ownerId &&
        activity.id == attempt.activityInstanceId &&
        activity.attemptKind == some attempt.attemptKind),
      .workflow "attempt kind must match child activity kind")]
  if attempt.attemptKind = .attemptB then
    let noParent : ActivityError := .workflow
      "invalid Attempt A/B relation: parent must be an owner-scoped Attempt A"
    let some parent := attempt.parentAttemptId.bind (db.attempt? attempt.ownerId)
      | throw noParent
    let some activity := db.activities.rows.find? fun activity =>
        activity.ownerId = parent.ownerId ∧ activity.id = parent.activityInstanceId
      | throw noParent
    raiseFirst [
      (parent.attemptKind != .attemptA, noParent),
      (activity.attemptKind != some .attemptA,
        .workflow "Attempt A parent activity kind must be attempt_a"),
      (parent.prompt != attempt.prompt,
        .workflow "Attempt B must use the same prompt as Attempt A")]

/-- Insert an attempt past `uq_attempts_owner_activity_kind`. -/
def insertAttempt (db : Db) (attempt : AttemptRow) : Except ActivityError Db := do
  db.validateAttempt attempt
  raiseFirst [(db.attempts.rows.any fun other => other.ownerId == attempt.ownerId &&
      other.activityInstanceId == attempt.activityInstanceId &&
      other.attemptKind == attempt.attemptKind,
    storageUnavailable)]
  return { db with attempts := (db.attempts.insert fun _ => attempt).2 }

/-- Insert a self-review past `uq_self_reviews_owner_activity_attempt`. -/
def insertSelfReview (db : Db) (review : SelfReviewRow) : Except ActivityError Db := do
  raiseFirst [(db.selfReviews.rows.any fun other => other.ownerId == review.ownerId &&
      other.activityInstanceId == review.activityInstanceId &&
      other.attemptId == review.attemptId,
    storageUnavailable)]
  return { db with selfReviews := (db.selfReviews.insert fun _ => review).2 }

def insertLink (db : Db) (link : Nat → ActivityArtifactLink) : Db :=
  { db with links := (db.links.insert link).2 }

end Db

end TamForge.Learning.ActivityService
