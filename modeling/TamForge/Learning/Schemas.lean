import TamForge.Learning.Tables

/-!
# Commands and responses of the activity service

`learning/schemas.py` and the receipts that make commands idempotent.
-/

namespace TamForge.Learning.ActivityService

open Models ProofSupport Roadmaps

/-! ## Commands -/

structure ArtifactReference where
  artifactId : Nat
  linkRole : LinkRole
deriving DecidableEq

inductive Command
  | start (activityId expectedVersion : Nat)
  | heartbeat (activityId expectedVersion clientSequence : Nat)
  | pause (activityId expectedVersion clientSequence : Nat)
  | resume (activityId expectedVersion : Nat)
  | classifyIncomplete (activityId expectedVersion : Nat) (classification : Classification)
      (strongerEvidenceId : Option Nat)
  | presignArtifact (activityId expectedVersion : Nat) (artifactClass : ArtifactClass)
      (sha256 : String) (byteLength : Nat) (contentType originalFilename : String)
  | confirmArtifact (activityId expectedVersion : Nat)
      (uploadIdempotencyKey objectKey : String)
  | setSourceVisibility (activityId expectedVersion : Nat) (hidden : Bool)
  | commitOutput (activityId expectedVersion clientSequence : Nat) (output : Json)
      (artifactRefs : List ArtifactReference) (parentAttemptId : Option Nat)
  | submitSelfReview (activityId expectedVersion : Nat) (answers : SelfReviewAnswers)
      (selfScore : Nat)
deriving DecidableEq

/-- `command_scope` -/
inductive Scope
  | start | heartbeat | pause | resume | classifyIncomplete | artifactPresign
  | artifactConfirm | sourceVisibility | commitOutput | selfReview
deriving DecidableEq

def Command.scope : Command → Scope
  | start .. => .start
  | heartbeat .. => .heartbeat
  | pause .. => .pause
  | resume .. => .resume
  | classifyIncomplete .. => .classifyIncomplete
  | presignArtifact .. => .artifactPresign
  | confirmArtifact .. => .artifactConfirm
  | setSourceVisibility .. => .sourceVisibility
  | commitOutput .. => .commitOutput
  | submitSelfReview .. => .selfReview

def Command.activityId : Command → Nat
  | start activityId .. | heartbeat activityId .. | pause activityId ..
  | resume activityId .. | classifyIncomplete activityId .. | presignArtifact activityId ..
  | confirmArtifact activityId .. | setSourceVisibility activityId ..
  | commitOutput activityId .. | submitSelfReview activityId .. => activityId

/-- `_request_hash`: the arguments as `json.dumps(sort_keys=True)` prints them
stand for the SHA-256 of that text. -/
def Command.requestHash : Command → Command
  | commitOutput activityId expectedVersion clientSequence output refs parentAttemptId =>
    commitOutput activityId expectedVersion clientSequence output.canonical refs
      parentAttemptId
  | command => command

/-! ## Responses -/

structure TimerResponse where
  id : Nat
  startedAt : Instant
  lastHeartbeatAt : Instant
  countedSeconds : Nat
  lastClientSequence : Nat
deriving DecidableEq

structure ActivityResponse where
  id : Nat
  studyDayId : Nat
  state : ActivityState
  optimisticVersion : Nat
  classification : Classification
  strongerEvidenceId : Option Nat
  activityFocusedSeconds : Nat
  dayFocusedMinutes : Nat
  hardStopRecommended : Bool
  openTimer : Option TimerResponse
  sourceHidden : Bool
deriving DecidableEq

structure ActivitySourceReference where
  path : String
  anchor : Option String
deriving DecidableEq

structure ActivityProcedureStep where
  phase : String
  minutes : Option Nat
  requirement : String
deriving DecidableEq

structure ActivityTaskContract where
  stableId : String
  block : ActivityBlock
  objective : String
  timeboxMinutes : Nat
  required : Bool
  sourceReferences : List ActivitySourceReference
  requiredOutput : List String
  passCriteria : List String
  evidenceRequirements : List String
  allowedAiRole : AiRole
  procedure : List ActivityProcedureStep
  constraints : List String
  exerciseType : Option String
  mappingVersion : Option String
deriving DecidableEq

structure CommittedOutputSummary where
  attemptId : Nat
  attemptKind : AttemptKind
  commitmentSha256 : CommitmentHash
  contractPayload : Json
  artifactIds : List Nat
  committedAt : Instant
deriving DecidableEq

structure SelfReviewSummary where
  id : Nat
  attemptId : Nat
  selfScore : Nat
  answers : SelfReviewAnswers
  submittedAt : Instant
deriving DecidableEq

structure ActivityDetailResponse extends ActivityResponse where
  taskContract : ActivityTaskContract
  committedOutput : Option CommittedOutputSummary
  selfReview : Option SelfReviewSummary
deriving DecidableEq

structure ArtifactResponse where
  id : Nat
  sha256 : String
  byteLength : Nat
  contentType : String
  originalFilename : String
  artifactClass : ArtifactClass
deriving DecidableEq

structure ArtifactIntentReceipt where
  artifactId : Option Nat
  ownerId : Nat
  activityId : Nat
  expectedVersion : Nat
  artifactClass : ArtifactClass
  objectKey : String
  sha256 : String
  byteLength : Nat
  contentType : String
  originalFilename : String
  reused : Bool

structure PresignedUpload where
  url : String
  headers : List (String × String)
  expiresSeconds : Nat
deriving DecidableEq

structure ArtifactPresignResponse where
  artifactId : Option Nat
  objectKey : String
  reused : Bool
  upload : Option PresignedUpload
deriving DecidableEq

structure OutputCommitResponse where
  activityId : Nat
  state : ActivityState
  optimisticVersion : Nat
  attemptId : Nat
  commitmentSha256 : CommitmentHash
  artifactIds : List Nat
deriving DecidableEq

structure SelfReviewResponse where
  activityId : Nat
  state : ActivityState
  optimisticVersion : Nat
  selfReviewId : Nat
  attemptId : Nat
  selfScore : Nat
deriving DecidableEq

/-- What a command answers. -/
inductive Response
  | activity (response : ActivityResponse)
  | detail (response : ActivityDetailResponse)
  | artifact (response : ArtifactResponse)
  | presign (response : ArtifactPresignResponse)
  | output (response : OutputCommitResponse)
  | selfReview (response : SelfReviewResponse)
deriving DecidableEq

/-- `result_payload`: a response, or the intent that a presign keeps in place
of its signed URL. -/
inductive Payload
  | response (value : Response)
  | intent (value : ArtifactIntentReceipt)

structure CommandReceipt where
  ownerId : Nat
  commandScope : Scope
  idempotencyKey : String
  requestHash : Command
  resultPayload : Payload
  createdAt : Instant
  expiresAt : Instant

/-- What a command can raise.  The first four are the `ActivityCommandError`s;
the others reach the caller as they are. -/
inductive ActivityError
  | notFound (message : String)
  | conflict (message : String)
  | invalidRequest (message : String)
  | unavailable (message : String)
  | workflow (message : String)
  | validation
deriving DecidableEq

end TamForge.Learning.ActivityService
