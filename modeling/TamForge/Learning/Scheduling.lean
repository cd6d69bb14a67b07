import Mathlib.Data.List.Dedup
import Mathlib.Data.List.Sort
import TamForge.Learning.Contracts

/-!
# Study-time rules

The budgets of `learning/time_policy.py`: how many minutes a study day may be
planned for, by its date or by the day of a scheme.
-/

namespace TamForge.Learning

open Models ProofSupport

/-- What planning a day can raise: a `TimePolicyError`, a `SchedulePolicyError`,
a `StudyDayNotReady` or an `ActivityUnavailable`, with its message. -/
inductive PlanError
  | timePolicy (message : String)
  | schedulePolicy (message : String)
  | notReady (message : String)
  | unavailable (message : String)
deriving DecidableEq

structure DayBudget where
  dayType : DayType
  targetMinutes : Nat
  acceptableMinimum : Nat
  maximumMinutes : Nat

def budgetFor (localDate : Date) : DayBudget :=
  if weekday localDate = 6 then ⟨.sunday, 0, 0, 0⟩
  else if weekday localDate = 5 then ⟨.saturday, 120, 0, 120⟩
  else ⟨.weekday, 240, 225, 255⟩

def budgetForDay (kind : String) (budgetMinutes : Int) : Except PlanError DayBudget :=
  if budgetMinutes < 0 then .error (.timePolicy "day budget cannot be negative")
  else
    let minutes := budgetMinutes.toNat
    if kind = "assessment" then .ok ⟨.saturday, minutes, 0, minutes⟩
    else if kind = "weekday" then .ok ⟨.weekday, minutes, minutes - 15, minutes + 15⟩
    else .error (.timePolicy "unknown scheme day kind")

def DayType.text : DayType → String
  | weekday => "weekday"
  | saturday => "saturday"
  | sunday => "sunday"
  | interview => "interview"

/-- `validate_planned_minutes`; a sum of timeboxes is never negative. -/
def validatePlannedMinutes (budget : DayBudget) (plannedMinutes : Nat) :
    Except PlanError Unit :=
  raiseFirst [(decide (budget.maximumMinutes < plannedMinutes),
    .timePolicy (budget.dayType.text ++ " study cannot exceed " ++
      toString budget.maximumMinutes ++ " minutes"))]

end TamForge.Learning

/-!
## Scheduling a study day

`learning/scheduling.py`: which day of a roadmap a date is, and the plan of that
day with its interviews and unfinished work.
-/

namespace TamForge.Learning

open Models ProofSupport

/-! ## Tasks, interviews and unfinished work -/

structure TaskTemplate where
  taskDefinitionId : Nat
  stableId : String
  mappingVersion : String
  objective : String
  block : String
  order : Nat
  timeboxMinutes : Nat
  required : Bool
  adaptivePriority : Option Nat

/-- `TaskTemplate.__post_init__` -/
def TaskTemplate.check (template : TaskTemplate) : Except PlanError Unit :=
  raiseFirst [
    (template.taskDefinitionId == 0 || template.order == 0 || template.timeboxMinutes == 0,
      .schedulePolicy "task identifiers, order, and timebox must be positive"),
    (template.stableId.isEmpty || template.mappingVersion.isEmpty ||
        isBlank template.objective,
      .schedulePolicy "task snapshot fields cannot be blank"),
    (template.required && template.adaptivePriority.isSome,
      .schedulePolicy "required tasks cannot be adaptive replacement slots")]

structure InterviewCommitment where
  id : Nat
  minutes : Nat

/-- `InterviewCommitment.__post_init__` -/
def InterviewCommitment.check (commitment : InterviewCommitment) : Except PlanError Unit :=
  raiseFirst [(commitment.id == 0 || commitment.minutes == 0 ||
      decide (480 < commitment.minutes),
    .schedulePolicy "interview commitment is invalid")]

structure UnfinishedWork where
  id : Nat
  classification : Classification
  minutes : Nat
  strongerEvidenceId : Option Nat

/-- `UnfinishedWork.__post_init__` -/
def UnfinishedWork.check (work : UnfinishedWork) : Except PlanError Unit :=
  raiseFirst [
    (work.id == 0 || work.minutes == 0, .schedulePolicy "unfinished work is invalid"),
    ((work.classification == .superseded) != work.strongerEvidenceId.isSome,
      .schedulePolicy "superseded work must link exactly one stronger evidence item")]

inductive MissedWorkAction
  | replaceAdaptive | pendingReplacement | retrievalQueue | drop | linkStrongerEvidence
deriving DecidableEq

structure MissedWorkDecision where
  workId : Nat
  action : MissedWorkAction
  replacedTaskId : Option Nat
  strongerEvidenceId : Option Nat

structure DayPlan where
  localDate : Date
  curriculumDay : Option Nat
  dayType : DayType
  tasks : List TaskTemplate
  interviewMinutes : Nat
  plannedMinutes : Nat
  missedWork : List MissedWorkDecision

/-! ## The number of a study day -/

/-- `curriculum_day_number`: six roadmap days a week from a Monday. -/
def curriculumDayNumber (studyStartDate localDate : Date) : Except PlanError (Option Nat) := do
  raiseFirst [
    (weekday studyStartDate != 0,
      .schedulePolicy "study start date must be a Monday roadmap anchor"),
    (decide (localDate < studyStartDate),
      .schedulePolicy "study date precedes the roadmap anchor")]
  if weekday localDate = 6 then return none
  else return some ((localDate - studyStartDate) / 7 * 6 + weekday localDate + 1)

/-- The loop of `study_day_number`, with the dates that remain. -/
def countStudyDates (restWeekdays : List Nat) (number : Nat) (current : Date) : Nat → Nat
  | 0 => number
  | remaining + 1 =>
    countStudyDates restWeekdays
      (if restWeekdays.contains (weekday current) then number else number + 1)
      (current + 1) remaining

def studyDayNumber (restWeekdays : List Nat) (studyStartDate localDate : Date) :
    Except PlanError (Option Nat) := do
  raiseFirst [(decide (localDate < studyStartDate),
    .schedulePolicy "study date precedes the roadmap anchor")]
  if restWeekdays.contains (weekday localDate) then return none
  else return some (countStudyDates restWeekdays 0 studyStartDate (localDate + 1 - studyStartDate))

/-- The loop of `first_open_study_date`, over one week of candidates. -/
def skipRestDates (restWeekdays : List Nat) (candidate : Date) : Nat → Date
  | 0 => candidate
  | remaining + 1 =>
    if restWeekdays.contains (weekday candidate) then
      skipRestDates restWeekdays (candidate + 1) remaining
    else candidate

def firstOpenStudyDate (localToday : Date) (lastPlanned : Option Date)
    (restWeekdays : List Nat) : Except PlanError Date := do
  raiseFirst [(decide (7 ≤ restWeekdays.dedup.length),
    .schedulePolicy "a scheme needs at least one study weekday")]
  let candidate := match lastPlanned with
    | none => localToday
    | some last => if localToday ≤ last then last + 1 else localToday
  return skipRestDates restWeekdays candidate 7

/-! ## Schemes -/

structure StoredDay where
  kind : String
  budgetMinutes : Int

/-- The `scheme` of a normalized payload: the days by their number. -/
structure StoredScheme where
  restWeekdays : List Nat
  days : List (Nat × StoredDay)

structure SchemeInfo where
  restWeekdays : List Nat
  budgets : List (Nat × DayBudget)

namespace SchemeInfo

def isLegacy (scheme : SchemeInfo) : Bool :=
  scheme.budgets.isEmpty

def dayNumber (scheme : SchemeInfo) (studyStartDate localDate : Date) :
    Except PlanError (Option Nat) :=
  if scheme.isLegacy then curriculumDayNumber studyStartDate localDate
  else studyDayNumber scheme.restWeekdays studyStartDate localDate

def budget (scheme : SchemeInfo) (curriculumDay : Option Nat) (localDate : Date) : DayBudget :=
  (curriculumDay.bind fun day => scheme.budgets.lookup day).getD (budgetFor localDate)

/-- `next_study_date`, over one week of candidates. -/
def nextStudyDate (scheme : SchemeInfo) (localDate : Date) : Date :=
  skipRestDates scheme.restWeekdays (localDate + 1) 7

end SchemeInfo

def legacyScheme : SchemeInfo :=
  ⟨[6], []⟩

def schemeForVersion (scheme : Option StoredScheme) : Except PlanError SchemeInfo :=
  match scheme with
  | none => .ok legacyScheme
  | some stored => do
      let budgets ← stored.days.mapM fun entry => do
        let budget ← budgetForDay entry.2.kind entry.2.budgetMinutes
        return (entry.1, budget)
      return ⟨stored.restWeekdays, budgets⟩

/-! ## The plan of a day -/

def totalMinutes (tasks : List TaskTemplate) : Nat :=
  (tasks.map TaskTemplate.timeboxMinutes).sum

def fallbackBlocks : List String :=
  ["saturday_assessment", "correction_warmup", "daily_close", "career_pipeline",
    "technical_learning", "sql"]

/-- The loop of `_replace_for_interviews` over its fallback blocks. -/
def dropBlocks (counted maximumMinutes : Nat) (remaining : List TaskTemplate) :
    List String → List TaskTemplate
  | [] => remaining
  | block :: blocks =>
    if totalMinutes remaining + counted ≤ maximumMinutes then remaining
    else dropBlocks counted maximumMinutes
      (remaining.filter fun item => item.block != block) blocks

def replaceForInterviews (tasks : List TaskTemplate) (interviewMinutes maximumMinutes : Nat) :
    List TaskTemplate :=
  if interviewMinutes = 0 then tasks
  else
    let blocks : List String :=
      ["communication_spoken"] ++ (if 35 < interviewMinutes then ["tam_case"] else []) ++
        (if 120 ≤ interviewMinutes then ["correction_warmup", "daily_close"] else [])
    dropBlocks (min interviewMinutes maximumMinutes) maximumMinutes
      (tasks.filter fun item => !blocks.contains item.block) fallbackBlocks

/-- The candidate with the highest `(adaptive_priority, order, id)`. -/
def TaskTemplate.below (first second : TaskTemplate) : Bool :=
  let priority (item : TaskTemplate) : Nat := item.adaptivePriority.getD 0
  decide (priority first < priority second) || (priority first == priority second &&
    (decide (first.order < second.order) || (first.order == second.order &&
      decide (first.taskDefinitionId < second.taskDefinitionId))))

def replacementFor (tasks : List TaskTemplate) (minutes : Nat) : Option TaskTemplate :=
  (tasks.filter fun item => !item.required && item.adaptivePriority.isSome &&
    decide (minutes ≤ item.timeboxMinutes)).foldl (fun best item =>
      match best with
      | none => some item
      | some chosen => if chosen.below item then some item else some chosen) none

/-- `_resolve_unfinished`: the tasks that stay, the decisions, and the minutes
that were scheduled again. -/
def resolveUnfinished (maximumMinutes otherMinutes : Nat) :
    List TaskTemplate → Nat → List UnfinishedWork →
      List TaskTemplate × List MissedWorkDecision × Nat
  | tasks, rescheduled, [] => (tasks, [], rescheduled)
  | tasks, rescheduled, work :: rest =>
    let keep (decision : MissedWorkDecision) :=
      let (tasks, decisions, rescheduled) :=
        resolveUnfinished maximumMinutes otherMinutes tasks rescheduled rest
      (tasks, decision :: decisions, rescheduled)
    match work.classification with
    | .useful => keep ⟨work.id, .retrievalQueue, none, none⟩
    | .optional => keep ⟨work.id, .drop, none, none⟩
    | .superseded => keep ⟨work.id, .linkStrongerEvidence, none, work.strongerEvidenceId⟩
    | .required =>
      match replacementFor tasks work.minutes with
      | none => keep ⟨work.id, .pendingReplacement, none, none⟩
      | some replacement =>
        if maximumMinutes < totalMinutes tasks - replacement.timeboxMinutes +
            rescheduled + work.minutes + otherMinutes then
          keep ⟨work.id, .pendingReplacement, none, none⟩
        else
          let (tasks, decisions, rescheduled) :=
            resolveUnfinished maximumMinutes otherMinutes
              (tasks.filter fun item =>
                item.taskDefinitionId != replacement.taskDefinitionId)
              (rescheduled + work.minutes) rest
          (tasks, ⟨work.id, .replaceAdaptive, some replacement.taskDefinitionId, none⟩ ::
            decisions, rescheduled)

def TaskTemplate.notAfter (first second : TaskTemplate) : Prop :=
  first.order < second.order ∨
    first.order = second.order ∧ first.taskDefinitionId ≤ second.taskDefinitionId

instance : DecidableRel TaskTemplate.notAfter := fun _ _ =>
  inferInstanceAs (Decidable (_ ∨ _ ∧ _))

def buildDay (localDate : Date) (curriculumDay : Option Nat) (tasks : List TaskTemplate)
    (interviews : List InterviewCommitment) (unfinished : List UnfinishedWork)
    (budget : DayBudget) : Except PlanError DayPlan := do
  if budget.dayType = .sunday then
    return ⟨localDate, none, .sunday, [], 0, 0, []⟩
  else
    raiseFirst [
      (curriculumDay.all (fun day => day == 0),
        .schedulePolicy "a study day requires a positive curriculum day"),
      (decide (1 < (tasks.filter fun item => item.block == "correction_warmup").length),
        .schedulePolicy "a study day may contain only one correction warm-up")]
    let interviewMinutes := (interviews.map InterviewCommitment.minutes).sum
    let ordered := replaceForInterviews (tasks.insertionSort TaskTemplate.notAfter)
      interviewMinutes budget.maximumMinutes
    let counted := min interviewMinutes budget.maximumMinutes
    let (ordered, decisions, rescheduled) :=
      resolveUnfinished budget.maximumMinutes counted ordered 0 unfinished
    let plannedMinutes := totalMinutes ordered + counted + rescheduled
    validatePlannedMinutes budget plannedMinutes
    raiseFirst [(interviews.isEmpty && decide (plannedMinutes < budget.acceptableMinimum),
      .schedulePolicy ("weekday plan must include at least " ++
        toString budget.acceptableMinimum ++ " minutes"))]
    return ⟨localDate, curriculumDay, if interviews.isEmpty then budget.dayType else .interview,
      ordered, interviewMinutes, plannedMinutes, decisions⟩

end TamForge.Learning
