import TamForge.Learning.Artifacts
import TamForge.ProofSupport.Serial
import TamForge.Roadmaps.Mirroring

/-!
# Focused-time accumulation

The pure rules of `learning/timers.py`: a heartbeat counts a bounded part of
the server time that passed since the previous one, and never past the hard
stop of the day.
-/

namespace TamForge.Learning

open Models ProofSupport

def maxHeartbeatGapSeconds : Nat := 30

/-- `TimerPolicyError`, with its message. -/
structure TimerPolicyError where
  message : String

structure TimerState where
  startedAt : Instant
  lastHeartbeatAt : Instant
  countedSeconds : Nat
  lastClientSequence : Nat
  pausedAt : Option Instant
  endedAt : Option Instant

def TimerState.isOpen (timer : TimerState) : Bool :=
  timer.endedAt.isNone

structure HeartbeatDecision where
  timer : TimerState
  addedSeconds : Nat
  dayCountedSeconds : Nat
  hardStopRecommended : Bool

def startTimer (serverNow : Instant) : TimerState :=
  { startedAt := serverNow, lastHeartbeatAt := serverNow, countedSeconds := 0,
    lastClientSequence := 0, pausedAt := none, endedAt := none }

/-- `int((later - earlier).total_seconds())` for a later instant. -/
def elapsedSeconds (earlier later : Instant) : Nat :=
  ((later - earlier) / 1000000).toNat

def applyHeartbeat (timer : TimerState) (serverNow : Instant)
    (clientSequence dayCountedSeconds maximumGapSeconds dayHardStopSeconds : Nat) :
    Except TimerPolicyError HeartbeatDecision := do
  raiseFirst [
    (!timer.isOpen || timer.pausedAt.isSome, ⟨"timer is not open"⟩),
    (decide (clientSequence ≤ timer.lastClientSequence), ⟨"heartbeat sequence must increase"⟩),
    (decide (serverNow < timer.lastHeartbeatAt), ⟨"server heartbeat cannot move backward"⟩),
    (decide (dayHardStopSeconds = 0), ⟨"day timer total is invalid"⟩),
    (decide (maximumGapSeconds = 0), ⟨"heartbeat gap must be positive"⟩)]
  let boundedSeconds := min (elapsedSeconds timer.lastHeartbeatAt serverNow) maximumGapSeconds
  let remainingSeconds := dayHardStopSeconds - dayCountedSeconds
  let addedSeconds := min boundedSeconds remainingSeconds
  let nextDaySeconds := dayCountedSeconds + addedSeconds
  return {
    timer := { timer with
      lastHeartbeatAt := serverNow,
      countedSeconds := timer.countedSeconds + addedSeconds,
      lastClientSequence := clientSequence },
    addedSeconds := addedSeconds,
    dayCountedSeconds := nextDaySeconds,
    hardStopRecommended := decide (dayHardStopSeconds ≤ nextDaySeconds) }

/-- Whole seconds never exceed the time that passed. -/
theorem seconds_elapsedSeconds_le {earlier later : Instant} (h : earlier ≤ later) :
    seconds (elapsedSeconds earlier later) ≤ later - earlier := by
  have hle : (0 : Int) ≤ later - earlier := Int.sub_nonneg_of_le h
  unfold seconds elapsedSeconds
  omega

structure Counted (timer : TimerState) (serverNow : Instant)
    (clientSequence dayCountedSeconds maximumGapSeconds dayHardStopSeconds : Nat)
    (decision : HeartbeatDecision) : Prop where
  isOpen : timer.endedAt = none
  notPaused : timer.pausedAt = none
  sequence : timer.lastClientSequence < clientSequence
  forward : timer.lastHeartbeatAt ≤ serverNow
  timer_eq : decision.timer = { timer with
    lastHeartbeatAt := serverNow,
    countedSeconds := timer.countedSeconds + decision.addedSeconds,
    lastClientSequence := clientSequence }
  day_eq : decision.dayCountedSeconds = dayCountedSeconds + decision.addedSeconds
  gap : decision.addedSeconds ≤ maximumGapSeconds
  elapsed : seconds decision.addedSeconds ≤ serverNow - timer.lastHeartbeatAt
  capped : decision.addedSeconds ≤ dayHardStopSeconds - dayCountedSeconds

theorem applyHeartbeat_counted {timer : TimerState} {serverNow : Instant}
    {clientSequence dayCountedSeconds maximumGapSeconds dayHardStopSeconds : Nat}
    {decision : HeartbeatDecision}
    (h : applyHeartbeat timer serverNow clientSequence dayCountedSeconds maximumGapSeconds
      dayHardStopSeconds = .ok decision) :
    Counted timer serverNow clientSequence dayCountedSeconds maximumGapSeconds
      dayHardStopSeconds decision := by
  simp only [applyHeartbeat, bind_ok_iff] at h
  obtain ⟨_, hguards, hdec⟩ := h
  cases hdec
  have hgrd := raiseFirst_eq_ok.mp hguards
  simp only [List.forall_mem_cons, Bool.or_eq_false_iff, Bool.not_eq_false',
    decide_eq_false_iff_not, TimerState.isOpen] at hgrd
  obtain ⟨⟨hopen, hpaused⟩, hseq, hforward, -, -, -⟩ := hgrd
  have hle : timer.lastHeartbeatAt ≤ serverNow := Int.not_lt.mp hforward
  have helapsed := seconds_elapsedSeconds_le hle
  constructor
  · simpa using hopen
  · simpa using hpaused
  · omega
  · exact hle
  · rfl
  · rfl
  · simp only
    omega
  · simp only [seconds] at helapsed ⊢
    omega
  · simp only
    omega

end TamForge.Learning

/-!
## The tables behind the activity commands

Full rows of `learning/models.py`, the listeners and validators that guard
their updates, and the database that the activity service works on.  A flush
validates a row, checks the table's constraints and writes it.
-/

namespace TamForge.Learning.ActivityService

open Models ProofSupport Roadmaps

/-! ## Rows -/

structure StudyDayRow extends StudyDay where
  roadmapVersionId : Nat
  localDate : Date
  plannedMinutes : Nat
  focusedMinutes : Nat
  createdAt : Instant
  startedAt : Option Instant
  closedAt : Option Instant
deriving DecidableEq

structure ActivityRow extends ActivityInstance where
  taskStableIdSnapshot : String
  taskMappingVersionSnapshot : String
  taskObjectiveSnapshot : String
  taskTimeboxMinutesSnapshot : Nat
  roadmapVersionKeySnapshot : String
  assistanceMode : AssistanceMode
  timeboxMinutes : Nat
  replacementVersion : Nat
  replacesActivityId : Option Nat
  createdAt : Instant
deriving DecidableEq

structure ActivityTimerSession extends TimerState where
  id : Nat
  ownerId : Nat
  activityInstanceId : Nat
  idempotencyKey : String

structure AttemptRow extends Attempt where
  parentAttemptId : Option Nat
  audience : String
  commitmentHash : CommitmentHash
  createdAt : Instant

structure Artifact where
  id : Nat
  ownerId : Nat
  objectKey : String
  contentHash : String
  contentType : String
  originalFilename : String
  byteSize : Nat
  artifactClass : ArtifactClass

structure ActivityArtifactLink where
  id : Nat
  ownerId : Nat
  activityInstanceId : Nat
  attemptId : Option Nat
  artifactId : Nat
  linkRole : LinkRole

structure SelfReviewAnswers where
  mainAnswer : String
  didWell : String
  structureWeakness : String
  vaguePoints : String
  hesitationPoints : String
  changeNext : String
deriving DecidableEq

structure SelfReviewRow extends SelfReview where
  answers : SelfReviewAnswers

structure CoachThread where
  ownerId : Nat
  activityInstanceId : Option Nat
  assistanceMode : AssistanceMode

/-! ## Validators -/

/-- A listener that rejects a change of a timestamp that is already set. -/
def rewritten (old new : Option Instant) : Bool :=
  old.isSome && old != new

/-- `STUDY_DAY_TRANSITIONS` -/
def dayTransitions : List (DayStatus × DayStatus) :=
  [(.planned, .inProgress), (.planned, .skipped), (.inProgress, .closed),
    (.inProgress, .incomplete)]

/-- The listeners and `validate_study_day_workflow` for an update of a stored
row. -/
def validateStudyDayUpdate (old new : StudyDayRow) : Except String Unit :=
  raiseFirst [
    (old.status != new.status && !dayTransitions.contains (old.status, new.status),
      "invalid study day status transition"),
    (rewritten old.startedAt new.startedAt || rewritten old.closedAt new.closedAt,
      "study day lifecycle timestamps are write-once"),
    (old != new && old.status == new.status && new.status != .inProgress,
      "same-status study day updates are limited to in_progress"),
    (decide (new.focusedMinutes < old.focusedMinutes), "focused minutes cannot decrease"),
    (new.status == .planned && (new.startedAt.isSome || new.closedAt.isSome),
      "planned study day timestamps are incoherent"),
    (new.status == .inProgress && (new.startedAt.isNone || new.closedAt.isSome),
      "active study day timestamps are incoherent"),
    ((new.status == .closed || new.status == .incomplete) &&
        (new.startedAt.isNone || new.closedAt.isNone),
      "closed study day timestamps are incoherent")]

def validateActivityTimestamps (old new : ActivityInstance) : Except String Unit :=
  raiseFirst [(rewritten old.startedAt new.startedAt ||
      rewritten old.outputCommittedAt new.outputCommittedAt ||
      rewritten old.completedAt new.completedAt,
    "activity lifecycle timestamps are write-once")]

/-- `validate_timer_workflow` for an update of a stored row. -/
def validateTimerUpdate (old new : ActivityTimerSession) : Except String Unit :=
  raiseFirst [
    (old.endedAt.isSome, "ended timer is immutable"),
    (new.ownerId != old.ownerId || new.activityInstanceId != old.activityInstanceId ||
        new.idempotencyKey != old.idempotencyKey || new.startedAt != old.startedAt,
      "timer provenance is immutable"),
    (decide (new.lastHeartbeatAt < old.lastHeartbeatAt),
      "timer heartbeat cannot move backward"),
    (decide (new.countedSeconds < old.countedSeconds), "counted seconds cannot decrease"),
    (decide (new.lastClientSequence < old.lastClientSequence),
      "timer client sequence cannot decrease"),
    (old.pausedAt.isSome && new.pausedAt != old.pausedAt, "paused_at is write-once")]

/-! ## Constraints -/

/-- The largest PostgreSQL `INTEGER`. -/
def integerMax : Nat := 2 ^ 31 - 1

/-- `earlier <= later`, where a missing value constrains nothing. -/
def notBefore (earlier : Instant) (later : Option Instant) : Bool :=
  later.all fun value => decide (earlier ≤ value)

/-- The `CHECK` constraints of `study_days` that an update can break. -/
def StudyDayRow.admissible (day : StudyDayRow) : Bool :=
  decide (day.focusedMinutes ≤ 255) && notBefore day.createdAt day.startedAt

/-- The `CHECK` constraints of `activity_instances` that an update can break. -/
def ActivityRow.admissible (activity : ActivityRow) : Bool :=
  notBefore activity.createdAt activity.startedAt &&
    activity.startedAt.all (fun started => notBefore started activity.outputCommittedAt) &&
    notBefore ((activity.outputCommittedAt <|> activity.startedAt).getD activity.createdAt)
      activity.completedAt &&
    decide (activity.optimisticVersion ≤ integerMax)

/-- The `CHECK` constraints of `activity_timer_sessions`. -/
def ActivityTimerSession.admissible (timer : ActivityTimerSession) : Bool :=
  decide (timer.countedSeconds ≤ 918000) && decide (timer.lastClientSequence ≤ integerMax) &&
    decide (timer.startedAt ≤ timer.lastHeartbeatAt) &&
    notBefore timer.startedAt timer.pausedAt &&
    notBefore (timer.pausedAt.getD timer.lastHeartbeatAt) timer.endedAt &&
    notBefore timer.lastHeartbeatAt timer.endedAt

end TamForge.Learning.ActivityService
