import TamForge.Learning.Store

/-!
# Creating study days

`StudyDayService` of `learning/repository.py`: the study day of a learner-local
date is planned once, under the active version, and stays as it was planned.
-/

namespace TamForge.Learning.StudyDayService

open Models ProofSupport Roadmaps
open Learning.ActivityService (Db StudyDayRow ActivityRow)

/-! ## Tables -/

structure LearnerSetting where
  ownerId : Nat
  timezone : String
  studyStartDate : Date
  activeRoadmapVersionId : Option Nat

/-- A row of `interviews` as planning reads it. -/
structure Interview where
  id : Nat
  ownerId : Nat
  scheduled : Bool
  startsAt : Instant
  expectedDurationMinutes : Nat

/-- The tables of the activity service and those that planning adds to them. -/
structure Calendar extends Db where
  settings : List LearnerSetting
  versions : List RoadmapVersion
  nodes : List CurriculumNode
  interviews : List Interview
  exitReviews : List MonthExitReview

/-- `zoneinfo`: the local date of an instant and the first instant of a date. -/
structure Zone where
  localDate : Instant → Date
  midnight : Date → Instant

/-- What planning takes from outside: the zones, the instant it plans for, and
the time at which its rows are written. -/
structure Env where
  zone : String → Option Zone
  at_ : Instant
  now : Instant

namespace Calendar

def setting? (calendar : Calendar) (ownerId : Nat) : Option LearnerSetting :=
  calendar.settings.find? fun setting => setting.ownerId = ownerId

def version? (calendar : Calendar) (ownerId versionId : Nat) : Option RoadmapVersion :=
  calendar.versions.find? fun version => version.ownerId = ownerId ∧ version.id = versionId

def dayOn? (calendar : Calendar) (ownerId : Nat) (localDate : Date) : Option StudyDayRow :=
  calendar.days.rows.find? fun day => day.ownerId = ownerId ∧ day.localDate = localDate

end Calendar

def studyAnchor (studyStartDate : Date) (version : Option RoadmapVersion) : Date :=
  (version.bind RoadmapVersion.startsOn).getD studyStartDate

/-! ## The tasks of a day -/

def taskNode? (calendar : Calendar) (curriculumDay : Nat) (definition : TaskDefinitionRow) :
    Option CurriculumNode := do
  let task ← calendar.nodes.find? fun node => node.ownerId = definition.ownerId ∧
    node.roadmapVersionId = definition.roadmapVersionId ∧
    node.id = definition.curriculumNodeId
  let day ← calendar.nodes.find? fun node => node.ownerId = task.ownerId ∧
    node.roadmapVersionId = task.roadmapVersionId ∧ some node.id = task.parentId
  if day.kind = .day ∧ day.ordinal = curriculumDay then some task else none

def notAfter (first second : TaskDefinitionRow × Nat) : Prop :=
  first.2 < second.2 ∨ first.2 = second.2 ∧ first.1.id ≤ second.1.id

instance : DecidableRel notAfter := fun _ _ =>
  inferInstanceAs (Decidable (_ ∨ _ ∧ _))

/-- `_definitions`: the tasks of a day with their ordinals. -/
def definitionsOf (calendar : Calendar) (ownerId versionId curriculumDay : Nat) :
    List (TaskDefinitionRow × Nat) :=
  ((calendar.definitions.filter fun definition => definition.ownerId = ownerId ∧
    definition.roadmapVersionId = versionId).filterMap fun definition =>
      (taskNode? calendar curriculumDay definition).map fun node =>
        (definition, node.ordinal)).insertionSort notAfter

def template (definition : TaskDefinitionRow) (ordinal : Nat) :
    Except PlanError TaskTemplate := do
  let result : TaskTemplate :=
    { taskDefinitionId := definition.id, stableId := definition.stableId,
      mappingVersion := match definition.mappingVersion with
        | none | some "" => "not-applicable"
        | some version => version,
      objective := definition.objective, block := definition.block.text, order := ordinal,
      timeboxMinutes := definition.timeboxMinutes, required := definition.required,
      adaptivePriority := if definition.required then none else some 1 }
  result.check
  return result

def commitment (interview : Interview) : Except PlanError InterviewCommitment := do
  let result : InterviewCommitment := ⟨interview.id, interview.expectedDurationMinutes⟩
  result.check
  return result

def interviewsOn (calendar : Calendar) (ownerId : Nat) (zone : Zone) (localDate : Date) :
    List Interview :=
  (calendar.interviews.filter fun interview => interview.ownerId = ownerId ∧
    interview.scheduled = true ∧ zone.midnight localDate ≤ interview.startsAt ∧
    interview.startsAt < zone.midnight (localDate + 1)).insertionSort fun first second =>
      first.startsAt < second.startsAt ∨
        first.startsAt = second.startsAt ∧ first.id ≤ second.id

/-! ## Writing the day -/

def unavailable : PlanError :=
  .unavailable "the study day store is unavailable"

/-- The `CHECK` constraints of `study_days` that a planned day can break. -/
def insertable (day : StudyDayRow) : Bool :=
  decide (day.plannedMinutes ≤ 255) && match day.dayType with
    | .sunday => day.plannedMinutes == 0
    | .saturday => decide (day.plannedMinutes ≤ 120)
    | .weekday | .interview => true

def newActivities (env : Env) (version : RoadmapVersion) (studyDayId : Nat) :
    Nat → List TaskDefinitionRow → Except PlanError (List ActivityRow)
  | _, [] => .ok []
  | next, definition :: rest =>
    if h : 0 < next ∧ next ≤ bigintMax then do
      let activities ← newActivities env version studyDayId (next + 1) rest
      return {
        id := next, ownerId := version.ownerId, studyDayId := studyDayId,
        roadmapVersionId := version.id, taskDefinitionId := definition.id,
        state := .ready,
        attemptKind :=
          if definition.block = .saturdayAssessment then some .noAiAssessment else none,
        classification := if definition.required then .required else .useful,
        sourceHidden := false, optimisticVersion := 1, strongerEvidenceActivityId := none,
        startedAt := none, outputCommittedAt := none, completedAt := none,
        id_pos := h.1, id_le := h.2, taskStableIdSnapshot := definition.stableId,
        taskMappingVersionSnapshot := match definition.mappingVersion with
          | none | some "" => "not-applicable"
          | some mapping => mapping,
        taskObjectiveSnapshot := definition.objective,
        taskTimeboxMinutesSnapshot := definition.timeboxMinutes,
        roadmapVersionKeySnapshot := version.versionKey, assistanceMode := .none,
        timeboxMinutes := definition.timeboxMinutes, replacementVersion := 1,
        replacesActivityId := none, createdAt := env.now } :: activities
    else .error unavailable

structure StudyDayRecord where
  id : Nat
  ownerId : Nat
  roadmapVersionId : Nat
  localDate : Date
  plannedMinutes : Nat
  dayType : DayType
  activityIds : List Nat
  created : Bool

/-- `_record` and the record of a new day. -/
def record (day : StudyDayRow) (activityIds : List Nat) (created : Bool) : StudyDayRecord :=
  ⟨day.id, day.ownerId, day.roadmapVersionId, day.localDate, day.plannedMinutes, day.dayType,
    activityIds, created⟩

/-- What the calendar says about a date before anything is written: the date,
the active version and the number of the day in its scheme. -/
structure Scheduled where
  localDate : Date
  zone : Zone
  version : Option RoadmapVersion
  scheme : SchemeInfo
  curriculumDay : Option Nat

/-- The lookups of `ensure_current_day`.  `none` is a rest day. -/
def scheduled (env : Env) (calendar : Calendar) (setting : LearnerSetting) :
    Except PlanError (Option Scheduled) := do
  let some zone := env.zone setting.timezone
    | throw (.schedulePolicy "learner timezone is invalid")
  let localDate := zone.localDate env.at_
  let version := setting.activeRoadmapVersionId.bind (calendar.version? setting.ownerId)
  let scheme ← schemeForVersion (version.bind RoadmapVersion.scheme)
  let anchor := studyAnchor setting.studyStartDate version
  if anchor ≤ localDate then
    match ← scheme.dayNumber anchor localDate with
    | none => return none
    | some number => return some ⟨localDate, zone, version, scheme, some number⟩
  else return some ⟨localDate, zone, version, scheme, none⟩

def notActive (setting : LearnerSetting) : PlanError :=
  .notReady (if setting.activeRoadmapVersionId.isNone then "an active roadmap is required"
    else "the selected roadmap is not active")

def planOf (calendar : Calendar) (setting : LearnerSetting) (found : Scheduled) :
    Except PlanError (RoadmapVersion × DayPlan × List TaskDefinitionRow) := do
  let some curriculumDay := found.curriculumDay
    | throw (.notReady "study date precedes the roadmap anchor")
  let some version := found.version | throw (notActive setting)
  raiseFirst [(version.state != .active, notActive setting)]
  let definitions := definitionsOf calendar setting.ownerId version.id curriculumDay
  let interviews ← (interviewsOn calendar setting.ownerId found.zone found.localDate).mapM
    commitment
  let templates ← definitions.mapM fun item => template item.1 item.2
  raiseFirst [(templates.isEmpty && interviews.isEmpty,
    .notReady "the active roadmap has no task for this study date")]
  let plan ← buildDay found.localDate (some curriculumDay) templates interviews []
    (found.scheme.budget (some curriculumDay) found.localDate)
  return (version, plan, plan.tasks.filterMap fun task =>
    (definitions.map Prod.fst).find? fun definition => definition.id = task.taskDefinitionId)

def writePlan (env : Env) (calendar : Calendar) (version : RoadmapVersion) (plan : DayPlan)
    (definitions : List TaskDefinitionRow) : Except PlanError (StudyDayRecord × Calendar) := do
  let day : StudyDayRow :=
    { id := calendar.days.next, ownerId := version.ownerId, dayType := plan.dayType,
      status := .planned, roadmapVersionId := version.id, localDate := plan.localDate,
      plannedMinutes := plan.plannedMinutes, focusedMinutes := 0, createdAt := env.now,
      startedAt := none, closedAt := none }
  raiseFirst [(!insertable day, unavailable)]
  let activities ← newActivities env version day.id calendar.activities.next definitions
  let db : Db :=
    { calendar.toDb with
      days := (calendar.days.insert fun _ => day).2,
      activities := {
        rows := calendar.activities.rows ++ activities,
        next := calendar.activities.next + activities.length } }
  return (record day (activities.map fun activity => activity.id) true,
    { calendar with toDb := db })

/-- The body of `ensure_current_day` inside its transaction. -/
def ensureDay (env : Env) (calendar : Calendar) (ownerId : Nat) :
    Except PlanError (Option StudyDayRecord × Calendar) := do
  raiseFirst [(ownerId == 0, .notReady "owner is invalid")]
  let some setting := calendar.setting? ownerId
    | throw (.notReady "learner settings are unavailable")
  match ← scheduled env calendar setting with
  | none => return (none, calendar)
  | some found =>
    match calendar.dayOn? ownerId found.localDate with
    | some existing =>
      let activityIds := (calendar.activities.rows.filter fun activity =>
        activity.ownerId = ownerId ∧ activity.studyDayId = existing.id).map fun activity =>
          activity.id
      return (some (record existing activityIds false), calendar)
    | none =>
      let (version, plan, definitions) ← planOf calendar setting found
      let (day, after) ← writePlan env calendar version plan definitions
      return (some day, after)

/-- `ensure_current_day`: what the transaction wrote, or nothing of it. -/
def ensureCurrentDay (env : Env) (calendar : Calendar) (ownerId : Nat) :
    Except PlanError (Option StudyDayRecord) × Calendar :=
  match ensureDay env calendar ownerId with
  | .ok (day, after) => (.ok day, after)
  | .error error => (.error error, calendar)

end TamForge.Learning.StudyDayService
