import TamForge.Learning.Service

/-!
# The commands of the activity service

The handlers of `ActivityService`, each the work that its frame wraps, and one
call as its transaction.
-/

namespace TamForge.Learning.ActivityService

open Models ProofSupport Roadmaps

/-! ## Timer commands -/

def start (env : Env) (db : Db) (ownerId expectedVersion : Nat) (key : String)
    (row : LockedActivity) : Except ActivityError (Response × Db) := do
  assertTimerKeyAvailable db ownerId key
  let decision ← transitionOf row .active expectedVersion
  let day :=
    if row.day.status = .planned then
      { row.day with status := .inProgress, startedAt := some env.now }
    else row.day
  let activity := { row.activity with
    state := decision.state, startedAt := some env.now,
    optimisticVersion := decision.nextVersion }
  let db ← db.flushDay row.day day
  let db ← db.flushActivity row.activity activity
  let db ← db.insertTimer ownerId activity.id key (startTimer env.now)
  return (.activity (response db { row with day := day, activity := activity }), db)

def heartbeat (env : Env) (db : Db) (expectedVersion clientSequence : Nat)
    (row : LockedActivity) : Except ActivityError (Response × Db) := do
  raiseFirst [
    (row.activity.optimisticVersion != expectedVersion, .conflict "stale activity version"),
    (row.activity.state != .active, .conflict "activity is not active")]
  let timer ← requireOpenTimer db row.activity
  let (counted, _, db) ← applyTimerHeartbeat db row timer clientSequence env.now
  let result := response db counted
  let db ← db.flushDay row.day counted.day
  return (.activity result, db)

def pause (env : Env) (db : Db) (expectedVersion clientSequence : Nat)
    (row : LockedActivity) : Except ActivityError (Response × Db) := do
  let decision ← transitionOf row .paused expectedVersion
  let timer ← requireOpenTimer db row.activity
  let (counted, timer, db) ← applyTimerHeartbeat db row timer clientSequence env.now
  let ended := { timer with pausedAt := some env.now, endedAt := some env.now }
  let activity := { row.activity with
    state := decision.state, optimisticVersion := decision.nextVersion }
  let db ← db.flushDay row.day counted.day
  let db ← db.flushActivity row.activity activity
  let db ← db.flushTimer timer ended
  return (.activity (response db { counted with activity := activity }), db)

def resume (env : Env) (db : Db) (ownerId expectedVersion : Nat) (key : String)
    (row : LockedActivity) : Except ActivityError (Response × Db) := do
  assertTimerKeyAvailable db ownerId key
  let decision ← transitionOf row .active expectedVersion
  raiseFirst [((db.openTimer? row.activity).isSome,
    .conflict "paused activity already has an open timer")]
  let activity := { row.activity with
    state := decision.state, optimisticVersion := decision.nextVersion }
  let db ← db.flushActivity row.activity activity
  let db ← db.insertTimer ownerId activity.id key (startTimer env.now)
  return (.activity (response db { row with activity := activity }), db)

def validateIncompleteEvidence (db : Db) (ownerId activityId : Nat)
    (classification : Classification) (strongerEvidenceId : Option Nat) :
    Except ActivityError Unit := do
  raiseFirst [((classification == .superseded) != strongerEvidenceId.isSome,
    .invalidRequest "superseded incomplete work requires exactly one stronger evidence ID")]
  match strongerEvidenceId with
  | none => return ()
  | some evidenceId => raiseFirst [
      (evidenceId == activityId, .invalidRequest "activity cannot supersede itself"),
      (!db.activities.rows.any (fun activity => activity.ownerId == ownerId &&
          activity.id == evidenceId),
        .invalidRequest "stronger evidence activity was not found")]

def endOpenTimer (env : Env) (db : Db) (row : LockedActivity) :
    Except ActivityError (LockedActivity × Db) :=
  match db.openTimer? row.activity with
  | none => .ok (row, db)
  | some timer => do
      let (counted, timer, db) ←
        applyTimerHeartbeat db row timer (timer.lastClientSequence + 1) env.now
      let db ← db.flushTimer timer { timer with endedAt := some env.now }
      return (counted, db)

def classifyIncomplete (env : Env) (db : Db) (ownerId expectedVersion : Nat)
    (classification : Classification) (strongerEvidenceId : Option Nat)
    (row : LockedActivity) : Except ActivityError (Response × Db) := do
  validateIncompleteEvidence db ownerId row.activity.id classification strongerEvidenceId
  let decision ← transitionOf row .incomplete expectedVersion
  let (counted, db) ← endOpenTimer env db row
  let activity := { row.activity with
    classification := classification, strongerEvidenceActivityId := strongerEvidenceId,
    completedAt := some env.now, state := decision.state,
    optimisticVersion := decision.nextVersion }
  let db ← db.flushDay row.day counted.day
  let db ← db.flushActivity row.activity activity
  return (.activity (response db { counted with activity := activity }), db)

/-! ## Source visibility -/

def setSourceVisibility (env : Env) (db : Db) (expectedVersion : Nat) (hidden : Bool)
    (row : LockedActivity) : Except ActivityError (Response × Db) := do
  requireVersionAndState row expectedVersion [.ready, .active, .paused]
  if row.activity.sourceHidden ≠ hidden then
    let activity := { row.activity with
      sourceHidden := hidden, optimisticVersion := row.activity.optimisticVersion + 1 }
    let db ← db.flushActivity row.activity activity
    let result ← detailResponse env db { row with activity := activity }
    return (.detail result, db)
  else
    let result ← detailResponse env db row
    return (.detail result, db)

/-! ## Committing an output -/

def parentEvidenceMapping (parent : AttemptRow) : Except ActivityError (String × String) :=
  let invalid : ActivityError := .conflict "Attempt A evidence mapping is invalid"
  match parent.originalText with
  | some (.document (.object fields)) =>
    match Json.get fields "task_context" with
    | .object context =>
      match Json.get context "exercise_type", Json.get context "mapping_version" with
      | .string exerciseType, .string mappingVersion =>
        if isBlank exerciseType || isBlank mappingVersion then .error invalid
        else .ok (exerciseType, mappingVersion)
      | _, _ => .error invalid
    | _ => .error invalid
  | _ => .error invalid

def sourceAttempt (db : Db) (ownerId : Nat) (parentAttemptId : Option Nat) :
    Except ActivityError AttemptRow :=
  match parentAttemptId with
  | none => .error (.invalidRequest "Attempt B requires its source Attempt A")
  | some id =>
    match db.attempt? ownerId id with
    | none => .error (.invalidRequest "Attempt B parent must be an owner-scoped Attempt A")
    | some parent =>
      if parent.attemptKind = .attemptA then .ok parent
      else .error (.invalidRequest "Attempt B parent must be an owner-scoped Attempt A")

/-- The exercise that the output is evidence for: a correction takes it from
the attempt it corrects. -/
def evidenceMapping (db : Db) (ownerId : Nat) (parentAttemptId : Option Nat)
    (definition : TaskDefinitionRow) : Except ActivityError (String × String) := do
  if definition.block = .correctionWarmup then
    let parent ← sourceAttempt db ownerId parentAttemptId
    parentEvidenceMapping parent
  else
    match definition.exerciseType, definition.mappingVersion with
    | some exerciseType, some mappingVersion => return (exerciseType, mappingVersion)
    | _, _ => throw (.conflict "task evidence mapping is incomplete")

def validateOutput (env : Env) (db : Db) (ownerId : Nat) (output : Json)
    (parentAttemptId : Option Nat) (row : LockedActivity) :
    Except ActivityError ValidatedOutput := do
  let (exerciseType, mappingVersion) ←
    evidenceMapping db ownerId parentAttemptId row.definition
  (validateOutputContract env.parseOutput output {
    block := row.definition.block, sourceHidden := row.activity.sourceHidden,
    timeboxMinutes := row.activity.timeboxMinutes,
    taskStableId := row.activity.taskStableIdSnapshot, exerciseType := exerciseType,
    mappingVersion := mappingVersion,
    roadmapVersionKey := row.activity.roadmapVersionKeySnapshot,
    taskDefinitionId := row.activity.taskDefinitionId }).mapError
      fun error => .invalidRequest error.message

def proposedKind (row : LockedActivity) (parentAttemptId : Option Nat) :
    Except ActivityError AttemptKind :=
  match row.activity.attemptKind with
  | some kind => .ok kind
  | none =>
    if row.definition.block = .correctionWarmup then
      if parentAttemptId.isNone then
        .error (.invalidRequest "Attempt B requires its source Attempt A")
      else .ok .attemptB
    else if parentAttemptId.isSome then
      .error (.invalidRequest "Attempt A cannot have a parent attempt")
    else .ok .attemptA

def selectAttemptKind (db : Db) (ownerId : Nat) (parentAttemptId : Option Nat)
    (prompt : String) (row : LockedActivity) : Except ActivityError AttemptKind := do
  let kind ← proposedKind row parentAttemptId
  if kind = .attemptB then
    let parent ← sourceAttempt db ownerId parentAttemptId
    raiseFirst [(parent.prompt != prompt,
      .invalidRequest "Attempt B must use the same prompt as Attempt A")]
  else
    raiseFirst [(parentAttemptId.isSome,
      .invalidRequest "only Attempt B can have a parent attempt")]
  return kind

def boundArtifact (db : Db) (ownerId activityId : Nat) (reference : ArtifactReference) :
    Except ActivityError (ArtifactReference × Artifact) := do
  let some artifact := db.artifactById? ownerId reference.artifactId
    | throw (.invalidRequest "artifact reference was not found for this owner")
  raiseFirst [(!db.links.rows.any (fun link => link.ownerId == ownerId &&
      link.activityInstanceId == activityId && link.attemptId == none &&
      link.artifactId == reference.artifactId),
    .invalidRequest "artifact was not uploaded for this activity")]
  return (reference, artifact)

def loadCommitmentArtifacts (db : Db) (ownerId activityId : Nat)
    (refs : List ArtifactReference) :
    Except ActivityError (List ArtifactCommitment × List (ArtifactReference × Artifact)) := do
  raiseFirst [
    (!decide refs.Nodup, .invalidRequest "artifact references contain duplicate links"),
    (!refs.all (fun reference => (db.artifactById? ownerId reference.artifactId).isSome),
      .invalidRequest "artifact reference was not found for this owner")]
  let paired ← refs.mapM (boundArtifact db ownerId activityId)
  return (paired.map fun item => ⟨item.2.id, item.2.contentHash, item.1.linkRole⟩, paired)

def assistanceRank : AssistanceMode → Option Nat
  | .none => some 0
  | .coachPreparation => some 1
  | .hintLadder => some 2
  | .timeExpired | .referenceOnly => none

def strongerAssistance (current : AssistanceMode) (coached : Option AssistanceMode) :
    AssistanceMode :=
  match coached, assistanceRank current with
  | some mode, some rank => if rank < (assistanceRank mode).getD 0 then mode else current
  | _, _ => current

def coachedAssistance (db : Db) (ownerId activityId : Nat) (current : AssistanceMode) :
    AssistanceMode :=
  strongerAssistance current ((db.coachThreads.find? fun thread => thread.ownerId = ownerId ∧
    thread.activityInstanceId = some activityId).map CoachThread.assistanceMode)

def newAttempt (env : Env) (db : Db) (ownerId activityId : Nat) (kind : AttemptKind)
    (parentAttemptId : Option Nat) (validated : ValidatedOutput) (assistance : AssistanceMode)
    (commitmentHash : CommitmentHash) : Except ActivityError AttemptRow :=
  if h : 0 < db.attempts.next ∧ db.attempts.next ≤ bigintMax then
    .ok {
      id := db.attempts.next, ownerId := ownerId, activityInstanceId := activityId,
      attemptKind := kind, originalText := some (.document validated.canonicalPayload),
      originalMarkdown := validated.originalMarkdown, originalSql := validated.originalSql,
      prompt := validated.prompt, assistanceMode := assistance, committedAt := env.now,
      id_pos := h.1, id_le := h.2, parentAttemptId := parentAttemptId,
      audience := validated.audience, commitmentHash := commitmentHash,
      createdAt := env.now }
  else .error storageUnavailable

def linkArtifacts (db : Db) (attempt : AttemptRow)
    (artifacts : List (ArtifactReference × Artifact)) : Db :=
  artifacts.foldl (fun db item => db.insertLink fun id =>
    { id := id, ownerId := attempt.ownerId, activityInstanceId := attempt.activityInstanceId,
      attemptId := some attempt.id, artifactId := item.2.id, linkRole := item.1.linkRole }) db

def commitOutput (env : Env) (db : Db) (ownerId expectedVersion clientSequence : Nat)
    (output : Json) (artifactRefs : List ArtifactReference) (parentAttemptId : Option Nat)
    (row : LockedActivity) : Except ActivityError (Response × Db) := do
  let decision ← transitionOf row .outputCommitted expectedVersion
  let validated ← validateOutput env db ownerId output parentAttemptId row
  let kind ← selectAttemptKind db ownerId parentAttemptId validated.prompt row
  let (commitments, artifacts) ←
    loadCommitmentArtifacts db ownerId row.activity.id artifactRefs
  let invalid (error : ArtifactValidationError) : ActivityError :=
    .invalidRequest error.message
  commitments.forM fun commitment => commitment.check.mapError invalid
  let commitmentHash ← (buildCommitmentDigest validated commitments).mapError invalid
  let timer ← requireOpenTimer db row.activity
  let (counted, timer, db) ← applyTimerHeartbeat db row timer clientSequence env.now
  let activity := { row.activity with
    attemptKind := some kind, state := decision.state, outputCommittedAt := some env.now,
    optimisticVersion := decision.nextVersion }
  let db ← db.flushDay row.day counted.day
  let db ← db.flushActivity row.activity activity
  let db ← db.flushTimer timer { timer with endedAt := some env.now }
  let assistance := coachedAssistance db ownerId activity.id activity.assistanceMode
  let attempt ← newAttempt env db ownerId activity.id kind parentAttemptId validated
    assistance commitmentHash
  let db ← db.insertAttempt attempt
  let db := linkArtifacts db attempt artifacts
  return (.output {
    activityId := activity.id, state := .outputCommitted,
    optimisticVersion := activity.optimisticVersion, attemptId := attempt.id,
    commitmentSha256 := commitmentHash,
    artifactIds := (artifacts.map fun item => item.2.id).insertionSort (· ≤ ·) }, db)

/-! ## Self-review -/

def SelfReviewAnswers.texts (answers : SelfReviewAnswers) : List String :=
  [answers.mainAnswer, answers.didWell, answers.structureWeakness, answers.vaguePoints,
    answers.hesitationPoints, answers.changeNext]

def validateSelfReviewValues (answers : SelfReviewAnswers) (selfScore : Nat) :
    Except ActivityError Unit :=
  raiseFirst [(decide (4 < selfScore) || answers.texts.any (fun answer =>
      isBlank answer || decide (8192 < answer.utf8ByteSize)),
    .invalidRequest "self-review answers or score are invalid")]

def submitSelfReview (env : Env) (db : Db) (ownerId expectedVersion : Nat)
    (answers : SelfReviewAnswers) (selfScore : Nat) (row : LockedActivity) :
    Except ActivityError (Response × Db) := do
  let decision ← transitionOf row .selfReviewComplete expectedVersion
  let some attempt := db.attemptForActivity? ownerId row.activity.id
    | throw (.conflict "committed activity has no immutable attempt")
  if h : selfScore ≤ 4 then
    let review : SelfReviewRow :=
      { id := db.selfReviews.next, ownerId := ownerId, activityInstanceId := row.activity.id,
        attemptId := attempt.id, selfScore := selfScore, submittedAt := env.now,
        selfScore_le := h, answers := answers }
    let activity := { row.activity with
      state := decision.state, optimisticVersion := decision.nextVersion }
    let db ← db.flushActivity row.activity activity
    let db ← db.insertSelfReview review
    return (.selfReview {
      activityId := activity.id, state := .selfReviewComplete,
      optimisticVersion := activity.optimisticVersion, selfReviewId := review.id,
      attemptId := attempt.id, selfScore := selfScore }, db)
  else throw storageUnavailable

/-! ## Artifacts -/

def requireObjectStore (env : Env) : Except ActivityError ObjectStore :=
  match env.store with
  | none => .error (.unavailable "private object storage is unavailable")
  | some store => .ok store

def intentReceipt (intent : ArtifactUploadIntent) (expectedVersion : Nat)
    (artifact : Option Artifact) : ArtifactIntentReceipt where
  artifactId := artifact.map Artifact.id
  ownerId := intent.ownerId
  activityId := intent.activityId
  expectedVersion := expectedVersion
  artifactClass := intent.artifactClass
  objectKey := (artifact.map Artifact.objectKey).getD intent.objectKey
  sha256 := intent.sha256
  byteLength := intent.byteLength
  contentType := intent.contentType
  originalFilename := intent.originalFilename
  reused := artifact.isSome

def uploadIntent (receipt : ArtifactIntentReceipt) :
    Except ActivityError ArtifactUploadIntent :=
  (buildUploadIntent receipt.ownerId receipt.activityId receipt.artifactClass receipt.sha256
    receipt.byteLength receipt.contentType receipt.originalFilename).mapError
      fun _ => .invalidRequest "stored upload intent is invalid"

def loadArtifactIntent (env : Env) (db : Db) (ownerId : Nat) (key : String) :
    Except ActivityError ArtifactIntentReceipt := do
  raiseFirst [(!safeKey key, .invalidRequest "Idempotency-Key is invalid")]
  let some receipt := db.receipt? ownerId .artifactPresign key
    | throw (.invalidRequest "upload intent was not found")
  raiseFirst [(decide (receipt.expiresAt ≤ env.now),
    .invalidRequest "upload intent was not found")]
  match receipt.resultPayload with
  | .intent intent => return intent
  | .response _ => throw (.invalidRequest "stored upload intent is invalid")

def ensurePendingArtifactLink (db : Db) (ownerId activityId artifactId : Nat) : Db :=
  if db.links.rows.any (fun link => link.ownerId == ownerId &&
      link.activityInstanceId == activityId && link.attemptId == none &&
      link.artifactId == artifactId && link.linkRole == .supporting) then db
  else db.insertLink fun id =>
    { id := id, ownerId := ownerId, activityInstanceId := activityId, attemptId := none,
      artifactId := artifactId, linkRole := .supporting }

def validateReusableArtifact (artifact : Artifact) (intent : ArtifactUploadIntent) :
    Except ActivityError Unit :=
  raiseFirst [(artifact.contentHash != intent.sha256 ||
      artifact.byteSize != intent.byteLength || artifact.contentType != intent.contentType ||
      artifact.artifactClass != intent.artifactClass,
    .conflict "existing content hash has incompatible artifact metadata")]

def verifyReusableStoredObject (store : ObjectStore) (ownerId : Nat) (artifact : Artifact) :
    Except ActivityError Unit := do
  let stored? ← (store.stat artifact.objectKey).mapError
    fun _ => .unavailable "private object storage is unavailable"
  let changed : ActivityError :=
    .conflict "stored artifact no longer matches immutable metadata"
  match stored? with
  | none => throw changed
  | some stored => raiseFirst [(stored.sha256 != artifact.contentHash ||
      stored.byteLength != artifact.byteSize || stored.contentType != artifact.contentType ||
      stored.tag? "owner-id" != some (toString ownerId), changed)]

def newIntent (store : ObjectStore) (db : Db) (ownerId expectedVersion : Nat)
    (artifactClass : ArtifactClass) (sha256 : String) (byteLength : Nat)
    (contentType originalFilename : String) (row : LockedActivity) :
    Except ActivityError ArtifactIntentReceipt := do
  requireVersionAndState row expectedVersion [.active, .paused]
  let intent ← (buildUploadIntent ownerId row.activity.id artifactClass sha256 byteLength
    contentType originalFilename).mapError fun error => .invalidRequest error.message
  match db.artifactByHash? ownerId sha256 with
  | none => return intentReceipt intent expectedVersion none
  | some existing =>
    validateReusableArtifact existing intent
    verifyReusableStoredObject store ownerId existing
    return intentReceipt intent expectedVersion (some existing)

def presignResponse (store : ObjectStore) (receipt : ArtifactIntentReceipt) :
    Except ActivityError ArtifactPresignResponse := do
  if receipt.reused then
    return ⟨receipt.artifactId, receipt.objectKey, true, none⟩
  else
    let intent ← uploadIntent receipt
    let signed ← (store.presignPut intent).mapError
      fun _ => .unavailable "private object storage is unavailable"
    return ⟨none, intent.objectKey, false, some signed⟩

/-- The part of a presign that runs on a replay too. -/
def refreshUpload (store : ObjectStore) (db : Db) (ownerId : Nat) (row : LockedActivity)
    (receipt : ArtifactIntentReceipt) : Except ActivityError (Response × Db) := do
  let db := match receipt.reused, receipt.artifactId with
    | true, some artifactId => ensurePendingArtifactLink db ownerId row.activity.id artifactId
    | _, _ => db
  raiseFirst [(!receipt.reused && row.activity.state != .active &&
      row.activity.state != .paused,
    .conflict "upload URL cannot be refreshed after output commitment")]
  let result ← presignResponse store receipt
  return (.presign result, db)

/-- `presign_artifact` after the store is known.  A replay signs a new URL for
the intent of its receipt. -/
def presignArtifact (env : Env) (store : ObjectStore) (db : Db) (ownerId : Nat)
    (command : Command) (key : String) (expectedVersion : Nat) (artifactClass : ArtifactClass)
    (sha256 : String) (byteLength : Nat) (contentType originalFilename : String) :
    Except ActivityError (Response × Db) := do
  let row ← db.load ownerId command.activityId
  match ← duplicate db ownerId command key with
  | some (.intent receipt) => refreshUpload store db ownerId row receipt
  | some (.response _) => throw .validation
  | none =>
    let receipt ← newIntent store db ownerId expectedVersion artifactClass sha256 byteLength
      contentType originalFilename row
    refreshUpload store (saveReceipt env db ownerId command key (.intent receipt)) ownerId
      row receipt

def confirmUpload (store : ObjectStore) (intent : ArtifactUploadIntent) (objectKey : String) :
    Except ActivityError Unit := do
  let invalid (error : ArtifactValidationError) : ActivityError :=
    .invalidRequest error.message
  (verifyConfirmRequest intent objectKey).mapError invalid
  let stored? ← (store.stat intent.objectKey).mapError
    fun _ => .unavailable "private object storage is unavailable"
  match stored? with
  | none => throw (.invalidRequest "uploaded object was not found")
  | some stored => (verifyStoredObject intent stored).mapError invalid

def artifactOfUpload (db : Db) (ownerId : Nat) (intent : ArtifactUploadIntent) :
    Except ActivityError (Artifact × Db) := do
  lockOwner db ownerId
  match db.artifactByHash? ownerId intent.sha256 with
  | some existing =>
    validateReusableArtifact existing intent
    return (existing, db)
  | none =>
    raiseFirst [(db.artifacts.rows.any fun artifact => artifact.ownerId == ownerId &&
      artifact.objectKey == intent.objectKey, storageUnavailable)]
    let (artifact, artifacts) := db.artifacts.insert fun id =>
      { id := id, ownerId := ownerId, objectKey := intent.objectKey,
        contentHash := intent.sha256, contentType := intent.contentType,
        originalFilename := intent.originalFilename, byteSize := intent.byteLength,
        artifactClass := intent.artifactClass }
    return (artifact, { db with artifacts := artifacts })

def confirmedArtifact (store : ObjectStore) (db : Db) (ownerId : Nat)
    (receipt : ArtifactIntentReceipt) (objectKey : String) :
    Except ActivityError (Artifact × Db) := do
  if receipt.reused then
    let some artifactId := receipt.artifactId
      | throw (.invalidRequest "reused upload intent is invalid")
    let some artifact := db.artifactById? ownerId artifactId
      | throw (.conflict "reused artifact no longer exists")
    verifyReusableStoredObject store ownerId artifact
    return (artifact, db)
  else
    let intent ← uploadIntent receipt
    confirmUpload store intent objectKey
    artifactOfUpload db ownerId intent

def confirmArtifact (env : Env) (store : ObjectStore) (db : Db)
    (ownerId expectedVersion : Nat) (uploadIdempotencyKey objectKey : String)
    (row : LockedActivity) : Except ActivityError (Response × Db) := do
  requireVersionAndState row expectedVersion [.active, .paused]
  let receipt ← loadArtifactIntent env db ownerId uploadIdempotencyKey
  raiseFirst [(receipt.ownerId != ownerId || receipt.activityId != row.activity.id ||
      receipt.expectedVersion != expectedVersion,
    .invalidRequest "upload intent does not belong to this activity state")]
  let (artifact, db) ← confirmedArtifact store db ownerId receipt objectKey
  let db := ensurePendingArtifactLink db ownerId row.activity.id artifact.id
  return (.artifact {
    id := artifact.id, sha256 := artifact.contentHash, byteLength := artifact.byteSize,
    contentType := artifact.contentType, originalFilename := artifact.originalFilename,
    artifactClass := artifact.artifactClass }, db)

/-! ## One call -/

def run (env : Env) (db : Db) (ownerId : Nat) (command : Command) (key : String) :
    Except ActivityError (Response × Db) :=
  match command with
  | .start _ expectedVersion =>
    idempotent env db ownerId command key (start env db ownerId expectedVersion key)
  | .heartbeat _ expectedVersion clientSequence =>
    idempotent env db ownerId command key (heartbeat env db expectedVersion clientSequence)
  | .pause _ expectedVersion clientSequence =>
    idempotent env db ownerId command key (pause env db expectedVersion clientSequence)
  | .resume _ expectedVersion =>
    idempotent env db ownerId command key (resume env db ownerId expectedVersion key)
  | .classifyIncomplete _ expectedVersion classification strongerEvidenceId =>
    idempotent env db ownerId command key
      (classifyIncomplete env db ownerId expectedVersion classification strongerEvidenceId)
  | .presignArtifact _ expectedVersion artifactClass sha256 byteLength contentType
      originalFilename => do
      let store ← requireObjectStore env
      presignArtifact env store db ownerId command key expectedVersion artifactClass sha256
        byteLength contentType originalFilename
  | .confirmArtifact _ expectedVersion uploadIdempotencyKey objectKey => do
      let store ← requireObjectStore env
      idempotent env db ownerId command key
        (confirmArtifact env store db ownerId expectedVersion uploadIdempotencyKey objectKey)
  | .setSourceVisibility _ expectedVersion hidden =>
    idempotent env db ownerId command key (setSourceVisibility env db expectedVersion hidden)
  | .commitOutput _ expectedVersion clientSequence output artifactRefs parentAttemptId =>
    idempotent env db ownerId command key
      (commitOutput env db ownerId expectedVersion clientSequence output artifactRefs
        parentAttemptId)
  | .submitSelfReview _ expectedVersion answers selfScore => do
      validateSelfReviewValues answers selfScore
      idempotent env db ownerId command key
        (submitSelfReview env db ownerId expectedVersion answers selfScore)

/-- One call: `transaction_scope` keeps what the body wrote, or nothing of it. -/
def execute (env : Env) (db : Db) (ownerId : Nat) (command : Command) (key : String) :
    Except ActivityError Response × Db :=
  match run env db ownerId command key with
  | .ok (response, after) => (.ok response, after)
  | .error error => (.error error, db)

end TamForge.Learning.ActivityService
