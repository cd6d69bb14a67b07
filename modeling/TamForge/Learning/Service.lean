import TamForge.Learning.Store

/-!
# The activity service

`ActivityService` of `learning/service.py`: every command loads its activity,
answers a replay from the receipt it kept, and otherwise works on the tables and
keeps a receipt, all in one transaction.
-/

namespace TamForge.Learning.ActivityService

open Models ProofSupport Roadmaps

/-- The private object store, as one call finds it.  `Unit` is an
`ObjectStoreError`. -/
structure ObjectStore where
  stat : String → Except Unit (Option StoredObject)
  presignPut : ArtifactUploadIntent → Except Unit PresignedUpload

/-- What a call takes from outside the database: the clock when it works and
when it keeps its receipt, the object store, and pydantic's readers. -/
structure Env where
  now : Instant
  savedAt : Instant
  store : Option ObjectStore
  parseOutput : Json → Except String ActivityOutput
  parseStep : Json → Option ActivityProcedureStep

/-! ## Idempotency -/

/-- `response_type.model_validate` of a stored payload. -/
def Payload.response? : Payload → Scope → Option Response
  | .response (.activity value), .start | .response (.activity value), .heartbeat
  | .response (.activity value), .pause | .response (.activity value), .resume
  | .response (.activity value), .classifyIncomplete => some (.activity value)
  | .response (.artifact value), .artifactConfirm => some (.artifact value)
  | .response (.detail value), .sourceVisibility => some (.detail value)
  | .response (.output value), .commitOutput => some (.output value)
  | .response (.selfReview value), .selfReview => some (.selfReview value)
  | _, _ => none

/-- `_duplicate_as`, before the stored payload is read back. -/
def duplicate (db : Db) (ownerId : Nat) (command : Command) (key : String) :
    Except ActivityError (Option Payload) := do
  raiseFirst [(!safeKey key, .invalidRequest "Idempotency-Key is invalid")]
  match db.receipt? ownerId command.scope key with
  | none => return none
  | some receipt =>
    raiseFirst [(receipt.requestHash != command.requestHash,
      .conflict "Idempotency-Key was reused for another command")]
    return some receipt.resultPayload

/-- `timedelta(days=7)` -/
def receiptLifetime : Int := seconds (7 * 24 * 3600)

def saveReceipt (env : Env) (db : Db) (ownerId : Nat) (command : Command) (key : String)
    (payload : Payload) : Db :=
  { db with receipts := db.receipts ++ [
    { ownerId := ownerId, commandScope := command.scope, idempotencyKey := key,
      requestHash := command.requestHash, resultPayload := payload, createdAt := env.savedAt,
      expiresAt := env.savedAt + receiptLifetime }] }

def idempotent (env : Env) (db : Db) (ownerId : Nat) (command : Command) (key : String)
    (work : LockedActivity → Except ActivityError (Response × Db)) :
    Except ActivityError (Response × Db) := do
  let row ← db.load ownerId command.activityId
  match ← duplicate db ownerId command key with
  | some payload =>
    match payload.response? command.scope with
    | none => throw .validation
    | some response => return (response, db)
  | none =>
    let (response, after) ← work row
    return (response, saveReceipt env after ownerId command key (.response response))

def lockOwner (db : Db) (ownerId : Nat) : Except ActivityError Unit :=
  raiseFirst [(!db.owners.contains ownerId, .notFound "activity owner was not found")]

def assertTimerKeyAvailable (db : Db) (ownerId : Nat) (key : String) :
    Except ActivityError Unit := do
  lockOwner db ownerId
  raiseFirst [(db.timers.rows.any fun timer => timer.ownerId == ownerId &&
      timer.idempotencyKey == key,
    .conflict "Idempotency-Key was already used for a timer")]

/-! ## Transitions and timers -/

/-- `_transition` -/
def transitionOf (row : LockedActivity) (target : ActivityState) (expectedVersion : Nat) :
    Except ActivityError TransitionDecision :=
  (transition row.activity.state target row.activity.optimisticVersion expectedVersion
    row.day.dayType row.day.status).mapError fun error => .conflict error.message

def requireVersionAndState (row : LockedActivity) (expectedVersion : Nat)
    (allowedStates : List ActivityState) : Except ActivityError Unit :=
  raiseFirst [
    (row.activity.optimisticVersion != expectedVersion, .conflict "stale activity version"),
    (!allowedStates.contains row.activity.state,
      .conflict "activity state does not allow this command")]

def maximumMinutes (dayType : DayType) : Nat :=
  if dayType = .saturday then 120 else 255

/-- `_apply_timer_heartbeat`: the timer is flushed, the minutes of the day wait
for the next flush. -/
def applyTimerHeartbeat (db : Db) (row : LockedActivity) (timer : ActivityTimerSession)
    (clientSequence : Nat) (serverNow : Instant) :
    Except ActivityError (LockedActivity × ActivityTimerSession × Db) := do
  let daySeconds := db.daySeconds row.activity.ownerId row.day.id
  let maximumSeconds := maximumMinutes row.day.dayType * 60
  let decision ← (applyHeartbeat timer.toTimerState serverNow clientSequence daySeconds
    maxHeartbeatGapSeconds maximumSeconds).mapError fun error => .conflict error.message
  let counted : ActivityTimerSession :=
    { timer with
      lastHeartbeatAt := decision.timer.lastHeartbeatAt,
      countedSeconds := decision.timer.countedSeconds,
      lastClientSequence := decision.timer.lastClientSequence }
  let db ← db.flushTimer timer counted
  let day := { row.day with
    focusedMinutes := min (maximumSeconds / 60) (decision.dayCountedSeconds / 60) }
  return ({ row with day := day }, counted, db)

def requireOpenTimer (db : Db) (activity : ActivityRow) :
    Except ActivityError ActivityTimerSession :=
  match db.openTimer? activity with
  | none => .error (.conflict "active activity has no open timer")
  | some timer => .ok timer

/-! ## Responses -/

def response (db : Db) (row : LockedActivity) : ActivityResponse where
  id := row.activity.id
  studyDayId := row.day.id
  state := row.activity.state
  optimisticVersion := row.activity.optimisticVersion
  classification := row.activity.classification
  strongerEvidenceId := row.activity.strongerEvidenceActivityId
  activityFocusedSeconds := db.activitySeconds row.activity
  dayFocusedMinutes := row.day.focusedMinutes
  hardStopRecommended := decide (maximumMinutes row.day.dayType ≤ row.day.focusedMinutes)
  sourceHidden := row.activity.sourceHidden
  openTimer := (db.openTimer? row.activity).map fun timer =>
    { id := timer.id, startedAt := timer.startedAt, lastHeartbeatAt := timer.lastHeartbeatAt,
      countedSeconds := timer.countedSeconds,
      lastClientSequence := timer.lastClientSequence }

def stringItems (payload : Json) (field : String) : Except ActivityError (List String) :=
  let invalid : ActivityError := .conflict "stored task contract is invalid"
  match payload with
  | .object fields =>
    match Json.get fields field with
    | .array items => items.mapM fun item =>
      match item with
      | .string value => .ok value
      | _ => .error invalid
    | _ => .error invalid
  | _ => .error invalid

def sourceReference (value : Json) : Except ActivityError ActivitySourceReference :=
  let invalid : ActivityError := .conflict "stored task source reference is invalid"
  match value with
  | .object fields =>
    match Json.get fields "path", Json.get fields "heading" with
    | .string path, .string anchor => .ok ⟨path, some anchor⟩
    | .string path, .null => .ok ⟨path, none⟩
    | _, _ => .error invalid
  | _ => .error invalid

def procedureOf (env : Env) (outputContract : Json) :
    Except ActivityError (List ActivityProcedureStep) :=
  let invalid : ActivityError := .conflict "stored task output contract is invalid"
  match outputContract with
  | .object fields =>
    match Json.get fields "procedure" with
    | .array values => values.mapM fun value =>
      match env.parseStep value with
      | none => .error (.conflict "stored task procedure is invalid")
      | some step => .ok step
    | _ => .error invalid
  | _ => .error invalid

/-- The field bounds of `ActivityTaskContract`. -/
def ActivityTaskContract.valid (contract : ActivityTaskContract) : Bool :=
  let sized (text : String) (least most : Nat) : Bool :=
    decide (least ≤ text.length) && decide (text.length ≤ most)
  sized contract.stableId 1 192 && sized contract.objective 1 4096 &&
    decide (0 < contract.timeboxMinutes) && decide (contract.timeboxMinutes ≤ 255) &&
    decide (contract.sourceReferences.length ≤ 256) &&
    contract.sourceReferences.all (fun reference => sized reference.path 1 2048 &&
      reference.anchor.all fun anchor => sized anchor 0 512) &&
    decide (contract.requiredOutput.length ≤ 256) &&
    decide (contract.passCriteria.length ≤ 256) &&
    decide (contract.evidenceRequirements.length ≤ 256) &&
    decide (contract.procedure.length ≤ 64) && decide (contract.constraints.length ≤ 256) &&
    contract.exerciseType.all (fun value => sized value 0 64) &&
    contract.mappingVersion.all fun value => sized value 0 64

def taskContractResponse (env : Env) (definition : TaskDefinitionRow) :
    Except ActivityError ActivityTaskContract := do
  let references ← definition.sourceReferences.mapM sourceReference
  let procedure ← procedureOf env definition.outputContract
  let requiredOutput ← stringItems definition.outputContract "items"
  let passCriteria ← stringItems definition.passContract "items"
  let evidenceRequirements ← stringItems definition.evidenceContract "items"
  let constraints ← stringItems definition.outputContract "constraints"
  let contract : ActivityTaskContract :=
    { stableId := definition.stableId, block := definition.block,
      objective := definition.objective, timeboxMinutes := definition.timeboxMinutes,
      required := definition.required, sourceReferences := references,
      requiredOutput := requiredOutput, passCriteria := passCriteria,
      evidenceRequirements := evidenceRequirements,
      allowedAiRole := definition.allowedAiRole, procedure := procedure,
      constraints := constraints, exerciseType := definition.exerciseType,
      mappingVersion := definition.mappingVersion }
  raiseFirst [(!contract.valid, .validation)]
  return contract

/-- `json.loads` of a committed snapshot that must be a dictionary. -/
def contractPayload (text : Option JsonText) : Except ActivityError Json :=
  match text with
  | some (.document (.object fields)) => .ok (.object fields)
  | _ => .error (.conflict "committed output snapshot is invalid")

def committedSummary (db : Db) (attempt : AttemptRow) :
    Except ActivityError CommittedOutputSummary := do
  let payload ← contractPayload attempt.originalText
  return {
    attemptId := attempt.id, attemptKind := attempt.attemptKind,
    commitmentSha256 := attempt.commitmentHash, contractPayload := payload,
    artifactIds := db.attemptArtifactIds attempt.ownerId attempt.activityInstanceId attempt.id,
    committedAt := attempt.committedAt }

def selfReviewSummary? (db : Db) (attempt : AttemptRow) : Option SelfReviewSummary :=
  (db.selfReviews.rows.find? fun review => review.ownerId = attempt.ownerId ∧
    review.activityInstanceId = attempt.activityInstanceId ∧
    review.attemptId = attempt.id).map fun review =>
      { id := review.id, attemptId := review.attemptId, selfScore := review.selfScore,
        answers := review.answers, submittedAt := review.submittedAt }

def detailResponse (env : Env) (db : Db) (row : LockedActivity) :
    Except ActivityError ActivityDetailResponse := do
  let attempt? := db.attemptForActivity? row.activity.ownerId row.activity.id
  let committed ← attempt?.mapM (committedSummary db)
  let contract ← taskContractResponse env row.definition
  return { response db row with
    taskContract := contract, committedOutput := committed,
    selfReview := attempt?.bind (selfReviewSummary? db) }

end TamForge.Learning.ActivityService
