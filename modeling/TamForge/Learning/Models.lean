import TamForge.Models.Base
import TamForge.Models.Json
import TamForge.ProofSupport.Checks

/-!
# The activity state machine

The closed set of activity states, the transitions between them, and the pure
decision that every service makes before it writes a new state.
-/

namespace TamForge.Learning

inductive ActivityState
  | ready | active | paused | outputCommitted | selfReviewComplete | aiProcessing
  | feedbackReady | correctionDue | demonstrated | needsWork | incomplete | superseded
deriving DecidableEq

inductive DayType
  | weekday | saturday | sunday | interview
deriving DecidableEq

/-- `study_days.status` -/
inductive DayStatus
  | planned | inProgress | closed | incomplete | skipped
deriving DecidableEq

/-- `_TRANSITIONS`, which `ACTIVITY_TRANSITIONS` repeats state by state. -/
def transitions : List (ActivityState × ActivityState) :=
  [ (.ready, .active),
    (.active, .paused),
    (.active, .outputCommitted),
    (.active, .incomplete),
    (.paused, .active),
    (.paused, .incomplete),
    (.outputCommitted, .selfReviewComplete),
    (.selfReviewComplete, .aiProcessing),
    (.aiProcessing, .feedbackReady),
    (.feedbackReady, .correctionDue),
    (.correctionDue, .demonstrated),
    (.correctionDue, .needsWork) ]

/-- `ActivityStateError`, with its message. -/
structure ActivityStateError where
  message : String

structure TransitionDecision where
  state : ActivityState
  nextVersion : Nat

def dayForbidsWork (current : ActivityState) (dayType : DayType) (dayStatus : DayStatus) : Bool :=
  dayType == .sunday || (dayStatus != .planned && dayStatus != .inProgress) ||
    (current == .paused && dayStatus != .inProgress)

def transition (current target : ActivityState) (actualVersion expectedVersion : Nat)
    (dayType : DayType) (dayStatus : DayStatus) :
    Except ActivityStateError TransitionDecision :=
  if actualVersion = 0 ∨ expectedVersion ≠ actualVersion then
    .error ⟨"stale activity version"⟩
  else if (current, target) ∉ transitions then
    .error ⟨"invalid activity state transition"⟩
  else if target = .active ∧ dayForbidsWork current dayType dayStatus = true then
    .error ⟨"study day does not allow starting work"⟩
  else
    .ok ⟨target, actualVersion + 1⟩

variable {current target : ActivityState} {actualVersion expectedVersion : Nat}
  {dayType : DayType} {dayStatus : DayStatus} {decision : TransitionDecision}

/-- An accepted transition is one of the table, and it counts the version up. -/
theorem transition_ok
    (h : transition current target actualVersion expectedVersion dayType dayStatus =
      .ok decision) :
    (current, target) ∈ transitions ∧ decision = ⟨target, actualVersion + 1⟩ ∧
      0 < actualVersion := by
  unfold transition at h
  split at h
  · cases h
  · rename_i hver
    split at h
    · cases h
    · rename_i hok
      split at h
      · cases h
      · refine ⟨not_not.mp hok, (Except.ok.inj h).symm, ?_⟩
        omega

/-- Work becomes active only where the day allows it. -/
theorem transition_active
    (h : transition current .active actualVersion expectedVersion dayType dayStatus =
      .ok decision) : dayForbidsWork current dayType dayStatus = false := by
  unfold transition at h
  split at h
  · cases h
  · split at h
    · cases h
    · split at h
      · cases h
      · rename_i hday
        rw [not_and] at hday
        exact Bool.eq_false_iff.mpr (hday rfl)

end TamForge.Learning

/-!
## Learning tables

The rows of `learning/models.py` that reviews and evidence read, with the
columns they use and the update validator of activities.
-/

namespace TamForge.Learning

open Models ProofSupport

/-- `SAVED_ATTEMPT_KINDS`; an activity without one has kind `none`. -/
inductive AttemptKind
  | attemptA | attemptB | noAiAssessment | realInterview
deriving DecidableEq

/-- `ASSISTANCE_MODES` -/
inductive AssistanceMode
  | none | coachPreparation | hintLadder | timeExpired | referenceOnly
deriving DecidableEq

inductive Classification
  | required | useful | optional | superseded
deriving DecidableEq

structure StudyDay where
  id : Nat
  ownerId : Nat
  dayType : DayType
  status : DayStatus
deriving DecidableEq

structure TaskDefinition where
  id : Nat
  ownerId : Nat
  roadmapVersionId : Nat
  stableId : String
  exerciseType : Option String
  mappingVersion : Option String

structure ActivityInstance where
  id : Nat
  ownerId : Nat
  studyDayId : Nat
  roadmapVersionId : Nat
  taskDefinitionId : Nat
  state : ActivityState
  attemptKind : Option AttemptKind
  classification : Classification
  sourceHidden : Bool
  optimisticVersion : Nat
  strongerEvidenceActivityId : Option Nat
  startedAt : Option Instant
  outputCommittedAt : Option Instant
  completedAt : Option Instant
  id_pos : 0 < id
  id_le : id ≤ bigintMax
deriving DecidableEq

structure Attempt where
  id : Nat
  ownerId : Nat
  activityInstanceId : Nat
  attemptKind : AttemptKind
  originalText : Option JsonText
  originalMarkdown : Option String
  originalSql : Option String
  prompt : String
  assistanceMode : AssistanceMode
  committedAt : Instant
  id_pos : 0 < id
  id_le : id ≤ bigintMax

structure SelfReview where
  id : Nat
  ownerId : Nat
  activityInstanceId : Nat
  attemptId : Nat
  selfScore : Nat
  submittedAt : Instant
  selfScore_le : selfScore ≤ 4

theorem three_le_four : 3 ≤ 4 := by decide

/-- `ActivityWorkflowError`, with its message. -/
structure ActivityWorkflowError where
  message : String

def ActivityState.isCommitted : ActivityState → Bool
  | outputCommitted | selfReviewComplete | aiProcessing | feedbackReady | correctionDue
  | demonstrated | needsWork => true
  | ready | active | paused | incomplete | superseded => false

/-- The `set` listener on `state` and `validate_activity_workflow` for an update
of a stored row. -/
def validateActivityUpdate (old new : ActivityInstance) : Except ActivityWorkflowError Unit :=
  let classificationChanged := old.classification != new.classification ||
    old.strongerEvidenceActivityId != new.strongerEvidenceActivityId
  let stateChanged := old.state != new.state
  let kindChanged := old.attemptKind != new.attemptKind
  let sourceChanged := old.sourceHidden != new.sourceHidden
  raiseFirst [
    (stateChanged && !transitions.contains (old.state, new.state),
      ⟨"invalid activity state transition"⟩),
    (new.optimisticVersion != old.optimisticVersion + 1,
      ⟨"optimistic version must increase by one"⟩),
    (classificationChanged && (new.state != .incomplete ||
        (old.state != .active && old.state != .paused)),
      ⟨"incomplete classification can change only when work becomes incomplete"⟩),
    (kindChanged && !(old.attemptKind == none &&
        (new.attemptKind == some .attemptA || new.attemptKind == some .attemptB) &&
        old.state == .active && new.state == .outputCommitted),
      ⟨"attempt kind can be selected only while committing active output"⟩),
    (sourceChanged && (stateChanged || kindChanged || classificationChanged ||
        (new.state != .ready && new.state != .active && new.state != .paused)),
      ⟨"source visibility can change only before output commitment"⟩),
    (!sourceChanged && !stateChanged,
      ⟨"activity update must change state or source visibility"⟩),
    ((new.classification == .superseded) != new.strongerEvidenceActivityId.isSome,
      ⟨"superseded work must link stronger evidence"⟩),
    (new.strongerEvidenceActivityId == some new.id, ⟨"activity cannot supersede itself"⟩),
    (new.state == .ready && (new.startedAt.isSome || new.outputCommittedAt.isSome ||
        new.completedAt.isSome),
      ⟨"ready activity timestamps are incoherent"⟩),
    ((new.state == .active || new.state == .paused) && (new.startedAt.isNone ||
        new.outputCommittedAt.isSome || new.completedAt.isSome),
      ⟨"active activity timestamps are incoherent"⟩),
    (new.state == .incomplete && (new.startedAt.isNone || new.completedAt.isNone),
      ⟨"incomplete activity timestamps are incoherent"⟩),
    (new.state.isCommitted && (new.startedAt.isNone || new.outputCommittedAt.isNone),
      ⟨"committed activity timestamps are incoherent"⟩)]

end TamForge.Learning
