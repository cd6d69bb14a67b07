import TamForge.Learning.Store
import TamForge.Today.Handoff

/-!
# The contracts of the daily close

`today/schemas.py`: the command that closes a study day, what its validators
promise, and the answer.
-/

namespace TamForge.Today

open Learning Models

inductive UnfinishedClassification
  | none | required | useful | optional | superseded
deriving DecidableEq

inductive UnfinishedConsequence
  | none | replaceAdaptive | retrievalQueue | drop | linkStrongerEvidence
deriving DecidableEq

/-- `_CONSEQUENCE_BY_CLASSIFICATION` -/
def UnfinishedClassification.consequence : UnfinishedClassification → UnfinishedConsequence
  | none => .none
  | required => .replaceAdaptive
  | useful => .retrievalQueue
  | optional => .drop
  | superseded => .linkStrongerEvidence

def distinctIds (limit : Nat) (ids : List Nat) : Bool :=
  decide (ids.length ≤ limit) && decide ids.Nodup && ids.all fun id => decide (0 < id)

structure EvidenceManifest where
  activityIds : List Nat
  attemptIds : List Nat
  artifactIds : List Nat
  selfReviewIds : List Nat
  unique_ids : [activityIds, attemptIds, artifactIds, selfReviewIds].all (distinctIds 64) = true
deriving DecidableEq

def compactNonblank (text : String) : Bool :=
  !isBlank text && decide (text.utf8ByteSize ≤ 4096)

/-- A validated `DailyCloseCommand`. -/
@[ext] structure DailyCloseCommand where
  evidenceConfirmed : Bool
  evidenceManifest : EvidenceManifest
  strongestOutput : String
  repeatedMistake : String
  unfinishedClassification : UnfinishedClassification
  unfinishedRequirement : Option String
  correctionIds : List Nat
  compact_nonblank : [strongestOutput, repeatedMistake].all compactNonblank = true
  evidence_confirmed : evidenceConfirmed = true
  corrections_unique : distinctIds 2 correctionIds = true
  coherent_requirement : (unfinishedClassification != .none) =
    unfinishedRequirement.any fun text => !isBlank text
  requirement_size : unfinishedRequirement.all (fun text =>
    decide (text.utf8ByteSize ≤ 4096)) = true
deriving DecidableEq

def DailyCloseCommand.consequence (command : DailyCloseCommand) : UnfinishedConsequence :=
  command.unfinishedClassification.consequence

structure DailyCloseResponse where
  dailyCloseId : Nat
  studyDayId : Nat
  dayStatus : DayStatus
  closedAt : Instant
  consequence : UnfinishedConsequence
  replayed : Bool
deriving DecidableEq

end TamForge.Today

/-!
## Closing a study day

`close_day` of `today/repository.py` with its checks, the append-only close and
the handoff that it writes next to the activity tables.
-/

namespace TamForge.Today

open Learning Models ProofSupport
open Learning.ActivityService (ActivityRow StudyDayRow)

/-- A row of `daily_closes`. -/
structure DailyClose where
  id : Nat
  ownerId : Nat
  roadmapVersionId : Nat
  studyDayId : Nat
  evidenceConfirmed : Bool
  evidenceManifest : EvidenceManifest
  strongestOutput : String
  repeatedMistake : String
  unfinishedClassification : UnfinishedClassification
  unfinishedRequirement : Option String
  correctionCount : Nat
  closedAt : Instant

/-- A row of `daily_handoffs`. -/
structure DailyHandoff where
  id : Nat
  ownerId : Nat
  studyDayId : Nat
  dailyCloseId : Nat
  localDate : Date
  dayStatus : DayStatus
  focusedMinutes : Nat
  nextAction : String
  blocks : List HandoffBlock
  gaps : List String

/-- The activity tables with the closes and the handoffs. -/
structure TodayDb where
  learning : ActivityService.Db
  closes : Serial DailyClose
  handoffs : Serial DailyHandoff

/-- `corrections.status` -/
inductive CorrectionStatus
  | pending | scheduled | completed | dismissed | superseded
deriving DecidableEq

/-- A row of `corrections`. -/
structure Correction where
  id : Nat
  ownerId : Nat
  priority : Nat
  status : CorrectionStatus
  dueDate : Date

/-- A row of `coach_messages` with the activity of its thread. -/
structure CoachMessage where
  ownerId : Nat
  activityInstanceId : Option Nat
  fromCoach : Bool

/-- A row of `study_notes`. -/
structure StudyNote where
  id : Nat
  ownerId : Nat
  activityInstanceId : Nat
  approved : Bool

/-- What a close takes from outside the tables it writes: the clock, the scheme
of the active version, and rows that other services keep. -/
structure CloseEnv where
  now : Instant
  scheme : SchemeInfo
  corrections : List Correction
  coachMessages : List CoachMessage
  studyNotes : List StudyNote

/-- The errors of the repository; `workflow` is a row validator that rejects a
flush. -/
inductive TodayError
  | notReady (message : String)
  | conflict (message : String)
  | unavailable (message : String)
  | workflow (message : String)
  | typeError
deriving DecidableEq

def todayUnavailable : TodayError :=
  .unavailable "the today workspace is unavailable"

/-- A statement that a table rejects, or a validator that refuses a row. -/
def flushError : ActivityService.ActivityError → TodayError
  | .workflow message => .workflow message
  | _ => todayUnavailable

def Correction.isOpen (correction : Correction) : Bool :=
  correction.status == .pending || correction.status == .scheduled

/-- `SchemeInfo.next_study_date`, over one week of candidates. -/
def nextStudyDate (scheme : SchemeInfo) (localDate : Date) : Date :=
  skipRestDates scheme.restWeekdays (localDate + 1) 7

/-! ## The checks of a close -/

/-- `_require_exact_ids` against the rows that a query finds. -/
def requireExactIds (expected found : List Nat) : Except TodayError Unit :=
  raiseFirst [(!expected.all found.contains,
    .conflict "evidence manifest contains unavailable evidence")]

def activitiesOfDay (db : ActivityService.Db) (ownerId studyDayId : Nat) : List ActivityRow :=
  db.activities.rows.filter fun activity =>
    activity.ownerId = ownerId ∧ activity.studyDayId = studyDayId

def validateEvidence (db : ActivityService.Db) (ownerId studyDayId : Nat)
    (command : DailyCloseCommand) : Except TodayError Unit := do
  let manifest := command.evidenceManifest
  let activityIds := (activitiesOfDay db ownerId studyDayId).map fun activity => activity.id
  raiseFirst [(manifest.activityIds.isEmpty && manifest.attemptIds.isEmpty &&
      manifest.artifactIds.isEmpty && manifest.selfReviewIds.isEmpty,
    .conflict "daily close requires saved evidence")]
  requireExactIds manifest.activityIds activityIds
  requireExactIds manifest.attemptIds ((db.attempts.rows.filter fun attempt =>
    attempt.ownerId = ownerId ∧ attempt.activityInstanceId ∈ activityIds).map fun attempt =>
      attempt.id)
  requireExactIds manifest.artifactIds ((db.links.rows.filter fun link =>
    link.ownerId = ownerId ∧ link.activityInstanceId ∈ activityIds).map fun link =>
      link.artifactId)
  requireExactIds manifest.selfReviewIds ((db.selfReviews.rows.filter fun review =>
    review.ownerId = ownerId ∧ review.activityInstanceId ∈ activityIds).map fun review =>
      review.id)

def validateCorrections (env : CloseEnv) (ownerId : Nat) (localDate : Date)
    (correctionIds : List Nat) : Except TodayError Unit :=
  let due := env.corrections.filter fun correction => correction.ownerId = ownerId ∧
    correction.isOpen ∧ correction.dueDate = nextStudyDate env.scheme localDate
  raiseFirst [(!correctionIds.all fun id => due.any fun correction => correction.id == id,
    .conflict "selected corrections are not due next study day")]

def openTimerOfDay (db : ActivityService.Db) (ownerId studyDayId : Nat) : Bool :=
  db.timers.rows.any fun timer => timer.endedAt.isNone && timer.ownerId == ownerId &&
    db.timerOfDay ownerId studyDayId timer

def definitionOf? (db : ActivityService.Db) (activity : ActivityRow) :
    Option TamForge.Roadmaps.TaskDefinitionRow :=
  db.definitions.find? fun definition => definition.ownerId = activity.ownerId ∧
    definition.roadmapVersionId = activity.roadmapVersionId ∧
    definition.id = activity.taskDefinitionId

def settledStates : List ActivityState :=
  [.selfReviewComplete, .aiProcessing, .feedbackReady, .correctionDue, .demonstrated,
    .needsWork, .incomplete, .superseded]

def requiredBlocker (db : ActivityService.Db) (ownerId studyDayId : Nat) : Bool :=
  (activitiesOfDay db ownerId studyDayId).any fun activity =>
    (definitionOf? db activity).any fun definition =>
      definition.required && definition.block != .dailyClose &&
        !settledStates.contains activity.state

def validateClose (env : CloseEnv) (db : ActivityService.Db) (day : StudyDayRow)
    (command : DailyCloseCommand) : Except TodayError Unit := do
  raiseFirst [(day.status != .planned && day.status != .inProgress,
    .conflict "study day cannot be closed from its current state")]
  validateEvidence db day.ownerId day.id command
  validateCorrections env day.ownerId day.localDate command.correctionIds
  raiseFirst [
    (openTimerOfDay db day.ownerId day.id,
      .conflict "an active study timer must be stopped before close"),
    (command.unfinishedClassification == .none && requiredBlocker db day.ownerId day.id,
      .conflict "required work must be completed or classified before close")]

/-! ## What a close writes -/

/-- The rows that the handoff reports, `ORDER BY activity_instances.id`. -/
def handoffRows (db : ActivityService.Db) (ownerId studyDayId : Nat) :
    List (ActivityRow × TamForge.Roadmaps.TaskDefinitionRow) :=
  (((activitiesOfDay db ownerId studyDayId).filter fun activity =>
      activity.state ≠ .superseded).filterMap fun activity =>
    (definitionOf? db activity).map fun definition => (activity, definition)).insertionSort
      fun row other => row.1.id ≤ other.1.id

def handoffInput (env : CloseEnv) (db : ActivityService.Db)
    (row : ActivityRow × TamForge.Roadmaps.TaskDefinitionRow) : HandoffActivityInput where
  activityId := row.1.id
  stableId := row.1.taskStableIdSnapshot
  objective := row.1.taskObjectiveSnapshot
  state := row.1.state
  required := row.2.required
  focusedSeconds := db.activitySeconds row.1
  coached := env.coachMessages.any fun message => message.ownerId == row.1.ownerId &&
    message.activityInstanceId == some row.1.id && message.fromCoach
  noteId := (env.studyNotes.reverse.find? fun note => note.ownerId = row.1.ownerId ∧
    note.activityInstanceId = row.1.id ∧ note.approved).map StudyNote.id

/-- The corrections that are due, `ORDER BY priority, id`. -/
def pendingCorrections (env : CloseEnv) (day : StudyDayRow) : List Nat :=
  ((env.corrections.filter fun correction => correction.ownerId = day.ownerId ∧
    correction.isOpen ∧ correction.dueDate ≤ day.localDate).insertionSort fun left right =>
      left.priority < right.priority ∨ left.priority = right.priority ∧ left.id ≤ right.id).map
        Correction.id

/-- `_handoff` -/
def handoffOf (env : CloseEnv) (db : ActivityService.Db) (day : StudyDayRow)
    (close : DailyClose) (command : DailyCloseCommand) (id : Nat) : DailyHandoff :=
  let draft := buildHandoff ((handoffRows db day.ownerId day.id).map (handoffInput env db))
    command.unfinishedRequirement (pendingCorrections env day)
  { id := id, ownerId := day.ownerId, studyDayId := day.id, dailyCloseId := close.id,
    localDate := day.localDate, dayStatus := day.status,
    focusedMinutes := max draft.focusedMinutes day.focusedMinutes,
    nextAction := draft.nextAction, blocks := draft.blocks, gaps := draft.gaps }

/-- The close of a day that ends with `closedAt`. -/
def closeOf (day : StudyDayRow) (command : DailyCloseCommand) (closedAt : Instant) (id : Nat) :
    DailyClose where
  id := id
  ownerId := day.ownerId
  roadmapVersionId := day.roadmapVersionId
  studyDayId := day.id
  evidenceConfirmed := true
  evidenceManifest := command.evidenceManifest
  strongestOutput := command.strongestOutput
  repeatedMistake := command.repeatedMistake
  unfinishedClassification := command.unfinishedClassification
  unfinishedRequirement := command.unfinishedRequirement
  correctionCount := command.correctionIds.length
  closedAt := closedAt

/-- The `CHECK` constraint on the requirement, where blank is not `NULL`. -/
def DailyClose.admissible (close : DailyClose) : Bool :=
  match close.unfinishedRequirement with
  | none => close.unfinishedClassification == .none
  | some text => close.unfinishedClassification != .none && !isBtrimBlank text

/-- Insert a close past `uq_daily_closes_owner_study_day` and its constraints. -/
def insertClose (db : TodayDb) (close : DailyClose) : Except TodayError TodayDb := do
  raiseFirst [
    (db.closes.rows.any fun other => other.ownerId == close.ownerId &&
      other.studyDayId == close.studyDayId, todayUnavailable),
    (!close.admissible, todayUnavailable)]
  return { db with closes := (db.closes.insert fun _ => close).2 }

/-- Insert a handoff past `uq_daily_handoffs_owner_study_day`. -/
def insertHandoff (db : TodayDb) (handoff : DailyHandoff) : Except TodayError TodayDb := do
  raiseFirst [(db.handoffs.rows.any fun other => other.ownerId == handoff.ownerId &&
    other.studyDayId == handoff.studyDayId, todayUnavailable)]
  return { db with handoffs := (db.handoffs.insert fun _ => handoff).2 }

def flushDay (db : TodayDb) (old new : StudyDayRow) : Except TodayError TodayDb := do
  let learning ← (db.learning.flushDay old new).mapError flushError
  return { db with learning := learning }

/-! ## Closing -/

def sameClose (existing : DailyClose) (command : DailyCloseCommand) : Bool :=
  existing.evidenceConfirmed && existing.evidenceManifest == command.evidenceManifest &&
    existing.strongestOutput == command.strongestOutput &&
    existing.repeatedMistake == command.repeatedMistake &&
    existing.unfinishedClassification == command.unfinishedClassification &&
    existing.unfinishedRequirement == command.unfinishedRequirement &&
    existing.correctionCount == command.correctionIds.length

def closeResponse (close : DailyClose) (dayStatus : DayStatus) (command : DailyCloseCommand)
    (replayed : Bool) : DailyCloseResponse where
  dailyCloseId := close.id
  studyDayId := close.studyDayId
  dayStatus := dayStatus
  closedAt := close.closedAt
  consequence := command.consequence
  replayed := replayed

def startedForClose (env : CloseEnv) (day : StudyDayRow) : StudyDayRow :=
  if day.status = .planned then
    { day with status := .inProgress, startedAt := some (max env.now day.createdAt) }
  else day

def closedDay (day : StudyDayRow) (command : DailyCloseCommand) (closedAt : Instant) :
    StudyDayRow :=
  { day with
    status := if command.unfinishedClassification = .none then .closed else .incomplete,
    closedAt := some closedAt }

def firstClose (env : CloseEnv) (db : TodayDb) (day : StudyDayRow)
    (command : DailyCloseCommand) : Except TodayError (DailyCloseResponse × TodayDb) := do
  validateClose env db.learning day command
  let started := startedForClose env day
  let db ← flushDay db day started
  let some startedAt := started.startedAt | throw .typeError
  let closedAt := max (max env.now startedAt) started.createdAt
  let closed := closedDay started command closedAt
  let close := closeOf closed command closedAt db.closes.next
  let db ← flushDay db started closed
  let db ← insertClose db close
  let db ← insertHandoff db (handoffOf env db.learning closed close command db.handoffs.next)
  return (closeResponse close closed.status command false, db)

def closeDay (env : CloseEnv) (db : TodayDb) (ownerId : Nat) (localDate : Date)
    (command : DailyCloseCommand) : Except TodayError (DailyCloseResponse × TodayDb) := do
  let notReady : TodayError := .notReady "study day is unavailable"
  let some day := db.learning.days.rows.find? fun day =>
      day.ownerId = ownerId ∧ day.localDate = localDate
    | throw notReady
  raiseFirst [(day.dayType == .sunday, notReady)]
  match db.closes.rows.find? fun close =>
      close.ownerId = ownerId ∧ close.studyDayId = day.id with
  | some existing =>
    raiseFirst [(!sameClose existing command,
      .conflict "study day was already closed differently")]
    return (closeResponse existing day.status command true, db)
  | none => firstClose env db day command

/-- One call as its transaction: a call that raises leaves no trace. -/
def closeDayTx (env : CloseEnv) (db : TodayDb) (ownerId : Nat) (localDate : Date)
    (command : DailyCloseCommand) : Except TodayError DailyCloseResponse × TodayDb :=
  match closeDay env db ownerId localDate command with
  | .ok (response, after) => (.ok response, after)
  | .error error => (.error error, db)

end TamForge.Today
