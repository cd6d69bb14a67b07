import TamForge.Models.Dates
import TamForge.Models.Json
import TamForge.ProofSupport.Run

/-!
# Processing a report

`process` of the weekly and of the monthly queue: compose the report from
aggregates, hand its text to the channel, store it.  A job queue that retries
runs any number of attempts for one period, one after another or, after a
lease has expired, side by side; an attempt may stop between any two steps.
-/

namespace TamForge.Reports

open Models ProofSupport

/-! ## Outcomes and their text -/

inductive Direction
  | up | flat | down

def Direction.text : Direction → String
  | up => "up"
  | flat => "flat"
  | down => "down"

structure SkillLine where
  skillSlug : String
  direction : Direction
  note : String

structure Suggestion where
  change : String
  reason : String
  skillSlug : String

structure WeeklyReportOutcome where
  headline : String
  did : List String
  learned : List String
  improved : List String
  skills : List SkillLine
  suggestions : List Suggestion
  risks : List String
  decisionForFrank : String

inductive TrajectoryStatus
  | ahead | onTrack | behind | noEvidence

def TrajectoryStatus.text : TrajectoryStatus → String
  | ahead => "ahead"
  | onTrack => "on_track"
  | behind => "behind"
  | noEvidence => "no_evidence"

structure SkillTrajectory where
  skillSlug : String
  status : TrajectoryStatus
  note : String

inductive Recommendation
  | keep | reforecast | changeScheme

def Recommendation.text : Recommendation → String
  | keep => "keep"
  | reforecast => "reforecast"
  | changeScheme => "change_scheme"

structure MonthlyReportOutcome where
  headline : String
  trajectory : List SkillTrajectory
  largestGaps : List String
  coverageVerdict : String
  exitCriteriaVerdict : String
  bestEvidence : List String
  recommendation : Recommendation
  recommendationReasoning : String
  nextMonthPriorities : List String

def lines (title : String) (items : List String) : List String :=
  if items = [] then [] else (title ++ ":") :: items.map ("- " ++ ·) ++ [""]

def renderReportText (weekStart weekEnd : String) (outcome : WeeklyReportOutcome) : String :=
  "\n".intercalate (
    ["TAM Forge weekly report, " ++ weekStart ++ " to " ++ weekEnd, "", outcome.headline, ""] ++
    lines "Did" outcome.did ++
    lines "Learned" outcome.learned ++
    lines "Improved" outcome.improved ++
    lines "Skills" (outcome.skills.map fun line =>
      line.skillSlug ++ ": " ++ line.direction.text ++ "; " ++ line.note) ++
    lines "Suggested adjustments (nothing is applied until you approve it)"
      (outcome.suggestions.map fun item =>
        item.change ++ " (" ++ item.reason ++ "; " ++ item.skillSlug ++ ")") ++
    lines "Risks" outcome.risks ++
    ["Decision for you this week: " ++ outcome.decisionForFrank])

def renderMonthlyText (monthStart monthEnd : String) (outcome : MonthlyReportOutcome) : String :=
  "\n".intercalate (
    ["TAM Forge monthly report, " ++ monthStart ++ " to " ++ monthEnd, "", outcome.headline, ""] ++
    (if outcome.largestGaps = [] then []
      else ["Largest gaps first: " ++ ", ".intercalate outcome.largestGaps, ""]) ++
    ["Trajectory:"] ++
    outcome.trajectory.map (fun item =>
      "- " ++ item.skillSlug ++ ": " ++ item.status.text ++ "; " ++ item.note) ++
    ["", "Coverage: " ++ outcome.coverageVerdict,
      "Exit criteria: " ++ outcome.exitCriteriaVerdict, "",
      "Recommendation (" ++ outcome.recommendation.text ++ "): " ++
        outcome.recommendationReasoning, ""] ++
    (if outcome.nextMonthPriorities = [] then []
      else "Next month:" :: outcome.nextMonthPriorities.map ("- " ++ ·)))

/-! ## Periods -/

inductive Period
  | week (ownerId : Nat) (weekStart : Date)
  | month (ownerId : Nat) (monthStart : Date)
deriving DecidableEq

/-- `month_end_of` of the first day of a month. -/
def monthEndOf (monthStart : Date) : Date :=
  let (year, month, _) := ord2ymd monthStart
  if month = 12 then monthStart + 30
  else monthStart + (daysBeforeMonth (isLeap year) (month + 1) -
    daysBeforeMonth (isLeap year) month) - 1

def Period.span : Period → Date × Date
  | week _ weekStart => (weekStart, weekStart + 6)
  | month _ monthStart => (monthStart, monthEndOf monthStart)

inductive Outcome
  | weekly (outcome : WeeklyReportOutcome)
  | monthly (outcome : MonthlyReportOutcome)

def Outcome.answers : Outcome → Period → Bool
  | weekly _, .week _ _ | monthly _, .month _ _ => true
  | weekly _, .month _ _ | monthly _, .week _ _ => false

def Outcome.render (period : Period) (outcome : Outcome) : String :=
  let (first, last) := period.span
  match outcome with
  | weekly outcome => renderReportText (isoformat first) (isoformat last) outcome
  | monthly outcome => renderMonthlyText (isoformat first) (isoformat last) outcome

/-! ## Attempts -/

/-- `Delivery.status` -/
inductive DeliveryStatus
  | sent | failed | skipped

structure Delivery where
  status : DeliveryStatus
  detail : String

/-- What an attempt has composed: the aggregates it read and the answer to them. -/
structure Draft where
  model : String
  promptVersion : String
  inputs : Json
  outcome : Outcome

/-- A row of `weekly_reports` or of `monthly_reports`. -/
structure StoredReport where
  period : Period
  model : String
  promptVersion : String
  inputs : Json
  outcome : Outcome
  deliveryStatus : DeliveryStatus
  deliveryDetail : String
  createdAt : Instant

/-- What the channel was handed, and by which attempt. -/
structure Message where
  attempt : Nat
  period : Period
  body : String

/-- Where an attempt stands. -/
inductive Phase
  | composing
  | composed (draft : Draft)
  | handed (draft : Draft) (delivery : Delivery)
  | ended

structure State where
  attempts : Nat → Option (Period × Phase)
  reports : List StoredReport
  sent : List Message

/-- No attempt was ever made. -/
def State.initial : State where
  attempts := fun _ => none
  reports := []
  sent := []

namespace State

def setPhase (s : State) (i : Nat) (period : Period) (phase : Phase) : State :=
  { s with attempts := fun j => if j = i then some (period, phase) else s.attempts j }

def row (period : Period) (draft : Draft) (delivery : Delivery) (now : Instant) : StoredReport where
  period := period
  model := draft.model
  promptVersion := draft.promptVersion
  inputs := draft.inputs
  outcome := draft.outcome
  deliveryStatus := delivery.status
  deliveryDetail := String.ofList (delivery.detail.toList.take 1000)
  createdAt := now

def upsert (reports : List StoredReport) (row : StoredReport) : List StoredReport :=
  if reports.any fun report => report.period = row.period then
    reports.map fun report => if report.period = row.period then row else report
  else
    reports ++ [row]

end State

inductive ProcessEvent
  | start (i : Nat) (period : Period)
  | compose (i : Nat) (draft : Draft)
  | send (i : Nat) (delivery : Delivery)
  | store (i : Nat) (now : Instant)
  | fail (i : Nat)

/-- One step of one attempt.  `fail` is an exception or a crash at the point the
attempt has reached; the job may be tried again, as another attempt. -/
inductive ProcessStep (s : State) : ProcessEvent → State → Prop
  | start {i : Nat} {period : Period} : s.attempts i = none →
      ProcessStep s (.start i period) (s.setPhase i period .composing)
  | compose {i : Nat} {period : Period} {draft : Draft} :
      s.attempts i = some (period, .composing) → draft.outcome.answers period = true →
      ProcessStep s (.compose i draft) (s.setPhase i period (.composed draft))
  | send {i : Nat} {period : Period} {draft : Draft} {delivery : Delivery} :
      s.attempts i = some (period, .composed draft) →
      ProcessStep s (.send i delivery)
        { s.setPhase i period (.handed draft delivery) with
          sent := s.sent ++ [⟨i, period, draft.outcome.render period⟩] }
  | store {i : Nat} {period : Period} {draft : Draft} {delivery : Delivery} {now : Instant} :
      s.attempts i = some (period, .handed draft delivery) →
      ProcessStep s (.store i now)
        { s.setPhase i period .ended with
          reports := State.upsert s.reports (State.row period draft delivery now) }
  | fail {i : Nat} {period : Period} {phase : Phase} : s.attempts i = some (period, phase) →
      ProcessStep s (.fail i) (s.setPhase i period .ended)

end TamForge.Reports
