import TamForge.Jobs.Service
import TamForge.Learning.Repository
import TamForge.Models.Dates

/-!
# Queueing weekly reports

The part of `reports/service.py` that queues jobs: the week that is due at a
clock reading, the periodic `schedule_due` and the request by hand.  A job is
queued through the job service, under a key made of the owner and the week.
-/

namespace TamForge.Reports

open Jobs Learning Learning.StudyDayService Models
open ProofSupport

inductive ReportsError
  | invalid (message : String)
  | conflict (message : String)
  | unavailable (message : String)
  | job (error : JobError)
  | overflow
  | unknownZone
deriving DecidableEq

/-! ## Local time -/

/-- A naive `datetime`: its date and the microseconds since its midnight. -/
structure WallClock where
  date : Date
  micros : Nat

/-- `>=` of naive datetimes.  Two datetimes of one zone compare so. -/
def WallClock.reaches (clock other : WallClock) : Prop :=
  other.date < clock.date ∨ other.date = clock.date ∧ other.micros ≤ clock.micros

instance (clock other : WallClock) : Decidable (clock.reaches other) := by
  unfold WallClock.reaches
  infer_instance

/-- `ZoneInfo`: the zones that exist, and `astimezone` into each. -/
abbrev Zones := String → Option (Instant → WallClock)

def dayMicros : Int := 86400000000

def offsetClock (offset : Int) (now : Instant) : WallClock where
  date := (719163 + (now + offset) / dayMicros).toNat
  micros := ((now + offset) % dayMicros).toNat

/-- `clock().date()`: the clock is in UTC. -/
def utcDate (now : Instant) : Date := (offsetClock 0 now).date

def dueHour : Nat := 18

def sundayEvening (week : Date) : WallClock where
  date := week + 6
  micros := dueHour * 3600000000

def weekStartOf (day : Date) : Date := day - weekday day

def dueWeek (zones : Zones) (now : Instant) (timezone : String) (studyStart : Option Date) :
    Except ReportsError (Option Date) :=
  let unlessBefore (week : Date) : Option Date :=
    if studyStart.any fun started => week + 6 < started then none else some week
  match zones timezone with
  | none => .error .unknownZone
  | some zone =>
    let thisWeek := weekStartOf (zone now).date
    if dateMax < thisWeek + 6 then .error .overflow
    else if (zone now).reaches (sundayEvening thisWeek) then .ok (unlessBefore thisWeek)
    else if thisWeek ≤ 7 then .error .overflow
    else .ok (unlessBefore (thisWeek - 7))

/-! ## The queue of weekly reports -/

/-- The columns of `weekly_reports` that queueing reads. -/
structure ReportKey where
  ownerId : Nat
  weekStart : Date

structure Db where
  settings : List LearnerSetting
  reports : List ReportKey
  queue : Jobs.Store

def weeklyReportJobKind : String := "claude_weekly_report"

def weeklyReportMaxAttempts : Nat := 3

def claudeAnalysisPriority : Nat := 40

def weeklyReportIdempotencyKey (ownerId : Nat) (weekStart : Date) : String :=
  "claude-weekly-report-o" ++ toString ownerId ++ "-" ++ isoformat weekStart

def weeklyCommand (weekStart : Date) (hweek : 0 < weekStart) (availableAt : Instant) :
    EnqueueJobCommand where
  kind := weeklyReportJobKind
  payload := {
    subjectId := weekStart
    subjectId_pos := hweek
    relatedId_pos := by simp }
  priority := claudeAnalysisPriority
  availableAt := availableAt
  maxAttempts := weeklyReportMaxAttempts
  kind_slug := by decide
  priority_le := by decide
  maxAttempts_pos := by decide
  maxAttempts_le := by decide

namespace Db

def hasReport (db : Db) (ownerId : Nat) (week : Date) : Bool :=
  db.reports.any fun report => report.ownerId == ownerId && report.weekStart == week

def weekJob? (db : Db) (ownerId : Nat) (week : Date) : Option Notifications.BackgroundJob :=
  db.queue.jobByKey? ownerId (weeklyReportIdempotencyKey ownerId week)

end Db

namespace WeeklyReportQueue

/-- `_enqueue`.  The clock reads `now` throughout a call. -/
def enqueue (db : Db) (now : Instant) (ownerId : Nat) (weekStart : Date) :
    Except ReportsError (Bool × Db) :=
  if db.hasReport ownerId weekStart then
    .ok (false, db)
  else if hweek : 0 < weekStart then
    match JobService.enqueue db.queue now ownerId (weeklyCommand weekStart hweek now)
        (weeklyReportIdempotencyKey ownerId weekStart) with
    | .ok (result, queue) => .ok (!result.replayed, { db with queue := queue })
    | .error (.conflict _) => .ok (false, db)
    | .error error => .error (.job error)
  else
    .error .overflow

/-- The loop of `schedule_due`.  What earlier learners got stays when a later
one raises. -/
def scheduleEach (zones : Zones) (now : Instant) :
    List LearnerSetting → Db → Nat → Except ReportsError Nat × Db
  | [], db, queued => (.ok queued, db)
  | learner :: rest, db, queued =>
    match dueWeek zones now learner.timezone (some learner.studyStartDate) with
    | .error error => (.error error, db)
    | .ok none => scheduleEach zones now rest db queued
    | .ok (some week) =>
      match enqueue db now learner.ownerId week with
      | .error error => (.error error, db)
      | .ok (added, db) =>
        scheduleEach zones now rest db (if added then queued + 1 else queued)

/-- The default of `limit`. -/
def scheduleLimit : Nat := 20

def scheduleDue (zones : Zones) (db : Db) (now : Instant) : Except ReportsError Nat × Db :=
  scheduleEach zones now (db.settings.take scheduleLimit) db 0

def timezone (db : Db) (ownerId : Nat) : String :=
  ((db.settings.find? fun setting => setting.ownerId = ownerId).map
    LearnerSetting.timezone).getD "UTC"

def lastCompleteWeek (zones : Zones) (now : Instant) (timezone : String) :
    Except ReportsError Date :=
  match zones timezone with
  | none => .error .unknownZone
  | some zone =>
    let thisWeek := weekStartOf (zone now).date
    if thisWeek ≤ 7 then .error .overflow else .ok (thisWeek - 7)

def requestedWeek (zones : Zones) (db : Db) (now : Instant) (ownerId : Nat) :
    Option Date → Except ReportsError Date
  | some week => .ok week
  | none => lastCompleteWeek zones now (timezone db ownerId)

/-- The checks that `request` makes of its week. -/
def requestChecks (db : Db) (now : Instant) (ownerId : Nat) (week : Date) :
    Except ReportsError Unit :=
  if week ≠ weekStartOf week then
    .error (.invalid "a week starts on a Monday")
  else if dateMax < week + 6 then
    .error .overflow
  else if utcDate now < week + 6 then
    .error (.invalid "the week has not ended yet")
  else if db.hasReport ownerId week then
    .error (.conflict "this week already has its report")
  else
    .ok ()

/-- `request`, up to the response that `read` makes of its week. -/
def request (zones : Zones) (db : Db) (now : Instant) (ownerId : Nat) (weekStart : Option Date) :
    Except ReportsError Unit × Db :=
  match requestedWeek zones db now ownerId weekStart with
  | .error error => (.error error, db)
  | .ok week =>
    match requestChecks db now ownerId week with
    | .error error => (.error error, db)
    | .ok () =>
      match enqueue db now ownerId week with
      | .error error => (.error error, db)
      | .ok (_, db) => (.ok (), db)

end WeeklyReportQueue

/-! ## Runs -/

inductive Action
  | scheduleDue (outcome : Except ReportsError Nat)
  | request (ownerId : Nat) (weekStart : Option Date) (outcome : Except ReportsError Unit)
  | store (report : ReportKey)
  | queue (command : Command) (outcome : Jobs.Outcome)

structure Event where
  now : Instant
  action : Action

structure World where
  db : Db
  clock : Instant

/-- The effect of one action.  Besides the calls of this service, the job of a
week may store its report, and the queue is worked by everyone else; only this
service enqueues jobs of its kind or under its keys. -/
inductive Acts (zones : Zones) (db : Db) (now : Instant) : Action → Db → Prop
  | scheduleDue :
      Acts zones db now (.scheduleDue (WeeklyReportQueue.scheduleDue zones db now).1)
        (WeeklyReportQueue.scheduleDue zones db now).2
  | request (ownerId : Nat) (weekStart : Option Date) :
      Acts zones db now
        (.request ownerId weekStart (WeeklyReportQueue.request zones db now ownerId weekStart).1)
        (WeeklyReportQueue.request zones db now ownerId weekStart).2
  | store {report : ReportKey} :
      (db.weekJob? report.ownerId report.weekStart).isSome →
      Acts zones db now (.store report)
        (if db.hasReport report.ownerId report.weekStart then db
          else { db with reports := db.reports ++ [report] })
  | queue {command : Command} {outcome : Jobs.Outcome} {queue : Jobs.Store} :
      (∀ ownerId enqueued key, command = .enqueue ownerId enqueued key →
        enqueued.kind ≠ weeklyReportJobKind ∧
          ∀ week, key ≠ weeklyReportIdempotencyKey ownerId week) →
      exec db.queue now command = (outcome, queue) →
      Acts zones db now (.queue command outcome) { db with queue := queue }

/-- One action at a clock that does not go back. -/
def Step (zones : Zones) (w : World) (e : Event) (w' : World) : Prop :=
  w.clock ≤ e.now ∧ w'.clock = e.now ∧ Acts zones w.db e.now e.action w'.db

/-- A database no report was ever queued or stored in: the queue has done nothing but
queue work, every learner is an owner, and one beat looks at all of them. -/
structure Initial (w : World) : Prop where
  queue : ∃ owners start trace, QueueRun owners start trace ⟨w.db.queue, w.clock⟩
  owners_pos : ∀ ownerId ∈ w.db.queue.owners, 0 < ownerId ∧ ownerId ≤ bigintMax
  learners : ∀ learner ∈ w.db.settings, learner.ownerId ∈ w.db.queue.owners
  learners_nodup : (w.db.settings.map LearnerSetting.ownerId).Nodup
  learners_few : w.db.settings.length ≤ WeeklyReportQueue.scheduleLimit
  unreported : w.db.reports = []
  unqueued : ∀ ownerId week, w.db.weekJob? ownerId week = none
  unqueued_kind : ∀ job ∈ w.db.queue.jobs, job.kind ≠ weeklyReportJobKind

end TamForge.Reports
