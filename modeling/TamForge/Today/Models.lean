import TamForge.Notifications.Models

/-!
# The processing status of an activity

`activity_processing_statuses` with the listeners and the row validator of
`today/models.py`.
-/

namespace TamForge.Today

open Models Notifications ProofSupport

/-- `PROCESSING_STATES` -/
inductive ProcessingState
  | uploaded | processingAudio | transcribing | analyzing | ready | needsAttention
deriving DecidableEq

inductive ProgressLabel
  | uploaded | processingAudio | transcribing | analyzing | ready | actionRequired
deriving DecidableEq

/-- `PROGRESS_LABEL_BY_STATE` -/
def ProcessingState.label : ProcessingState → ProgressLabel
  | uploaded => .uploaded
  | processingAudio => .processingAudio
  | transcribing => .transcribing
  | analyzing => .analyzing
  | ready => .ready
  | needsAttention => .actionRequired

structure ActivityProcessingStatus where
  ownerId : Nat
  activityInstanceId : Nat
  state : ProcessingState
  progressLabel : ProgressLabel
  lastErrorCategory : Option ErrorCategory
  lastErrorDetails : Option ErrorDetails
  createdAt : Instant
  updatedAt : Instant

/-- `ProcessingWorkflowError`, with its message. -/
structure ProcessingWorkflowError where
  message : String

/-- The `set` listeners of an update from `old` to `new`. -/
def validateProcessingChange (old new : ActivityProcessingStatus) :
    Except ProcessingWorkflowError Unit :=
  raiseFirst [
    (old.state == new.state && (old.lastErrorCategory != new.lastErrorCategory ||
        old.lastErrorDetails != new.lastErrorDetails),
      ⟨"same-state processing error details are immutable"⟩),
    (decide (new.updatedAt < old.updatedAt), ⟨"processing updated_at must be monotonic"⟩)]

def validateProcessingStatus (target : ActivityProcessingStatus) :
    Except ProcessingWorkflowError Unit :=
  raiseFirst [
    (target.progressLabel != target.state.label,
      ⟨"processing progress label does not match state"⟩),
    (decide (target.updatedAt < target.createdAt),
      ⟨"processing timestamps are not monotonic"⟩),
    (target.state == .needsAttention &&
        (target.lastErrorCategory.isNone || !target.lastErrorDetails.any validateErrorDetailsV1),
      ⟨"processing error details are invalid"⟩),
    (target.state != .needsAttention &&
        (target.lastErrorCategory.isSome || target.lastErrorDetails.isSome),
      ⟨"non-error processing state cannot retain an error"⟩)]

def StatusInv (clock : Instant) (status : ActivityProcessingStatus) : Prop :=
  validateProcessingStatus status = .ok () ∧ status.updatedAt ≤ clock

end TamForge.Today
