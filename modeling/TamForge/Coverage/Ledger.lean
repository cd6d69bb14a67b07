import Mathlib.Data.List.Sort
import TamForge.Learning.Models
import TamForge.ProofSupport.Run

/-!
# The coverage ledger

`coverage_status`, `summarize` and `_facts` of `coverage_ledger/service.py`, and
the moves of activities that the ledger is read between.
-/

namespace TamForge.Coverage

open Learning Models ProofSupport

def stateText : ActivityState → String
  | .ready => "ready"
  | .active => "active"
  | .paused => "paused"
  | .outputCommitted => "output_committed"
  | .selfReviewComplete => "self_review_complete"
  | .aiProcessing => "ai_processing"
  | .feedbackReady => "feedback_ready"
  | .correctionDue => "correction_due"
  | .demonstrated => "demonstrated"
  | .needsWork => "needs_work"
  | .incomplete => "incomplete"
  | .superseded => "superseded"

def doneStates : List String := ["feedback_ready", "completed", "correction_due", "needs_work"]

def openStates : List String := ["active", "paused", "output_committed", "self_review_complete"]

inductive CoverageStatus
  | completed | inProgress | pending | notAssessed
deriving DecidableEq

inductive EvidenceStatus
  | qualifying | nonqualifying | none

inductive QueueStatus
  | assessed | practiced | inProgress | pending
deriving DecidableEq

structure ActivityFacts where
  activityIds : List Nat
  states : List String
  committed : Bool
  countedSeconds : Nat
  evidenceEventIds : List Nat
  qualifying : Bool
  realInterviewAttempts : Nat
  lastActivityAt : Option Instant

def coverageStatus (facts : ActivityFacts) : CoverageStatus :=
  if facts.states.any fun state => doneStates.contains state then
    if facts.evidenceEventIds.isEmpty then .notAssessed else .completed
  else if facts.states.any fun state => openStates.contains state then .inProgress
  else .pending

def evidenceStatus (facts : ActivityFacts) : EvidenceStatus :=
  if facts.evidenceEventIds.isEmpty then .none
  else if facts.qualifying then .qualifying else .nonqualifying

def queueStatus (facts : ActivityFacts) : QueueStatus :=
  if !facts.evidenceEventIds.isEmpty then .assessed
  else if facts.committed || facts.realInterviewAttempts != 0 then .practiced
  else if facts.states.any fun state => openStates.contains state then .inProgress
  else .pending

/-! ## The rows the ledger reads -/

/-- A row of `activity_timer_sessions`, by its activity. -/
structure TimerSession where
  activityInstanceId : Nat
  countedSeconds : Nat

/-- A row of `skill_evidence_events`. -/
structure SkillEvidenceEvent where
  id : Nat
  activityInstanceId : Nat
  qualifyingForLevel : Bool

/-- The rows of one owner; events in the order of their identities. -/
structure Tables where
  activities : List ActivityInstance
  timers : List TimerSession
  events : List SkillEvidenceEvent
  attempts : List (Nat × AttemptKind)

def taskActivities (tables : Tables) (taskId : Nat) : List ActivityInstance :=
  (tables.activities.filter fun activity => activity.taskDefinitionId == taskId).insertionSort
    fun first second => first.id ≤ second.id

/-- `output_committed_at`, `started_at`, without the missing ones. -/
def stamps (activity : ActivityInstance) : List Instant :=
  activity.outputCommittedAt.toList ++ activity.startedAt.toList

/-- `_facts` for one task; without activities they are `_EMPTY`. -/
def facts (tables : Tables) (taskId : Nat) : ActivityFacts :=
  let rows := taskActivities tables taskId
  let eventsOf (activity : ActivityInstance) :=
    tables.events.filter fun event => event.activityInstanceId == activity.id
  { activityIds := rows.map ActivityInstance.id
    states := rows.map fun activity => stateText activity.state
    committed := rows.any fun activity => activity.outputCommittedAt.isSome
    countedSeconds := (rows.map fun activity =>
      ((tables.timers.filter fun timer => timer.activityInstanceId == activity.id).map
        TimerSession.countedSeconds).sum).sum
    evidenceEventIds := rows.flatMap fun activity => (eventsOf activity).map SkillEvidenceEvent.id
    qualifying := rows.any fun activity => (eventsOf activity).any SkillEvidenceEvent.qualifyingForLevel
    realInterviewAttempts := (rows.map fun activity =>
      tables.attempts.countP fun attempt =>
        attempt.1 == activity.id && attempt.2 == .realInterview).sum
    lastActivityAt := (rows.flatMap stamps).max? }

/-! ## The response -/

structure CoverageItem where
  taskDefinitionId : Nat
  status : CoverageStatus
  evidenceStatus : EvidenceStatus
  plannedMinutes : Nat
  actualMinutes : Nat
  activityIds : List Nat
  evidenceEventIds : List Nat
  lastActivityAt : Option Instant

structure InterviewQueueItem where
  position : Nat
  taskDefinitionId : Nat
  question : String
  status : QueueStatus

structure CoverageSummary where
  requiredItems : Nat
  completed : Nat
  inProgress : Nat
  pending : Nat
  notAssessed : Nat
  plannedMinutes : Nat
  actualMinutes : Nat
  queueItems : Nat
  queuePracticed : Nat
  nextQuestion : Option String

structure CoveredTask where
  id : Nat
  objective : String
  timeboxMinutes : Nat
  required : Bool
  interviewBlock : Bool

def item (tables : Tables) (task : CoveredTask) : CoverageItem :=
  let read := facts tables task.id
  { taskDefinitionId := task.id
    status := coverageStatus read
    evidenceStatus := evidenceStatus read
    plannedMinutes := task.timeboxMinutes
    actualMinutes := read.countedSeconds / 60
    activityIds := read.activityIds
    evidenceEventIds := read.evidenceEventIds
    lastActivityAt := read.lastActivityAt }

def queueItem (tables : Tables) (position : Nat) (task : CoveredTask) : InterviewQueueItem where
  position := position
  taskDefinitionId := task.id
  question := task.objective
  status := queueStatus (facts tables task.id)

/-- `counts[status]` after the loop -/
def statusCount (items : List CoverageItem) (status : CoverageStatus) : Nat :=
  items.countP fun covered => covered.status == status

def summarize (items : List CoverageItem) (queue : List InterviewQueueItem) : CoverageSummary where
  requiredItems := items.length
  completed := statusCount items .completed
  inProgress := statusCount items .inProgress
  pending := statusCount items .pending
  notAssessed := statusCount items .notAssessed
  plannedMinutes := (items.map CoverageItem.plannedMinutes).sum
  actualMinutes := (items.map CoverageItem.actualMinutes).sum
  queueItems := queue.length
  queuePracticed := queue.countP fun asked => asked.status == .practiced || asked.status == .assessed
  nextQuestion := (queue.find? fun asked =>
    asked.status == .pending || asked.status == .inProgress).map InterviewQueueItem.question

/-- `read`, from the tasks of a version: the items of the required ones, the
queue of the spoken ones, and the summary of both. -/
def readLedger (tables : Tables) (tasks : List CoveredTask) :
    CoverageSummary × List CoverageItem × List InterviewQueueItem :=
  let items := (tasks.filter CoveredTask.required).map (item tables)
  let queue := (tasks.filter CoveredTask.interviewBlock).mapIdx fun index task =>
    queueItem tables (index + 1) task
  (summarize items queue, items, queue)

/-! ## Moves -/

/-- What happens to the rows: an activity is planned, an activity moves, or
another row is added. -/
inductive LedgerEvent
  | planned (id : Nat)
  | moved (id : Nat) (target : ActivityState)
  | added

structure Moves (before after : ActivityInstance) (target : ActivityState) : Prop where
  id : after.id = before.id
  task : after.taskDefinitionId = before.taskDefinitionId
  state : after.state = target
  allowed : ∃ expectedVersion dayType dayStatus, transition before.state target
    before.optimisticVersion expectedVersion dayType dayStatus =
      .ok ⟨target, after.optimisticVersion⟩

inductive LedgerStep : Tables → LedgerEvent → Tables → Prop
  | planned {tables : Tables} {activity : ActivityInstance} (hready : activity.state = .ready)
      (hfresh : ∀ other ∈ tables.activities, other.id ≠ activity.id) :
      LedgerStep tables (.planned activity.id)
        { tables with activities := tables.activities ++ [activity] }
  | moved {tables : Tables} {left right : List ActivityInstance}
      {before after : ActivityInstance} {target : ActivityState}
      (hrows : tables.activities = left ++ before :: right) (hmoves : Moves before after target) :
      LedgerStep tables (.moved before.id target)
        { tables with activities := left ++ after :: right }
  | added {tables : Tables} {timers : List TimerSession} {events : List SkillEvidenceEvent}
      {attempts : List (Nat × AttemptKind)} :
      LedgerStep tables .added
        { tables with
          timers := timers
          events := tables.events ++ events
          attempts := tables.attempts ++ attempts }

/-- Before anything is planned. -/
def Tables.empty : Tables := ⟨[], [], [], []⟩

end TamForge.Coverage
