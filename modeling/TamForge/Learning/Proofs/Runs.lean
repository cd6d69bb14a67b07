import TamForge.Learning.Proofs.Effects

/-!
# Runs of the activity service

A run interleaves the calls of any clients with the planning of new study days
and with what other services write to the tables that this one only reads.  The
storage may refuse any call, which then leaves no trace.
-/

namespace TamForge.Learning.ActivityService

open Models ProofSupport Roadmaps

structure Call where
  env : Env
  ownerId : Nat
  command : Command
  key : String

inductive Event
  | call (call : Call) (outcome : Except ActivityError Response)
  | planned (day : StudyDayRow) (activities : List ActivityRow)
  | elsewhere (owners : List Nat) (definitions : List TaskDefinitionRow)
      (coachThreads : List CoachThread)

/-- A study day and its activities as `ensure_current_day` inserts them. -/
structure Planned (db : Db) (day : StudyDayRow) (activities : List ActivityRow) : Prop where
  day_id : day.id = db.days.next
  day_status : day.status = .planned
  day_focused : day.focusedMinutes = 0
  activity_ids : activities.map (fun activity => activity.id) =
    List.range' db.activities.next activities.length
  activity_owner : ∀ activity ∈ activities, activity.ownerId = day.ownerId
  activity_day : ∀ activity ∈ activities, activity.studyDayId = day.id
  activity_state : ∀ activity ∈ activities, activity.state = .ready

def Db.plan (db : Db) (day : StudyDayRow) (activities : List ActivityRow) : Db :=
  { db with
    days := (db.days.insert fun _ => day).2,
    activities := {
      rows := db.activities.rows ++ activities,
      next := db.activities.next + activities.length } }

inductive Step : Db → Event → Db → Prop
  | executed (db : Db) (call : Call) :
      Step db (.call call (execute call.env db call.ownerId call.command call.key).1)
        (execute call.env db call.ownerId call.command call.key).2
  | unavailable (db : Db) (call : Call) : Step db (.call call (.error storageUnavailable)) db
  | planned {db : Db} {day : StudyDayRow} {activities : List ActivityRow}
      (h : Planned db day activities) : Step db (.planned day activities) (db.plan day activities)
  | elsewhere (db : Db) (owners : List Nat) (definitions : List TaskDefinitionRow)
      (coachThreads : List CoachThread) :
      Step db (.elsewhere owners definitions coachThreads)
        { db with owners := owners, definitions := definitions, coachThreads := coachThreads }

/-- No study day was planned yet. -/
structure Initial (db : Db) : Prop where
  days : db.days = Serial.empty
  activities : db.activities = Serial.empty
  timers : db.timers = Serial.empty
  attempts : db.attempts = Serial.empty

/-- What one step does to the core tables: a planned day, or an effect at the
clock of the call. -/
inductive StepEffect (db : Db) : Event → Db → Prop
  | planned {day : StudyDayRow} {activities : List ActivityRow}
      (h : Planned db day activities) :
      StepEffect db (.planned day activities) (db.plan day activities)
  | call {call : Call} {outcome : Except ActivityError Response} {after : Db}
      (h : Effect call.env.now db after) : StepEffect db (.call call outcome) after
  | elsewhere {owners : List Nat} {definitions : List TaskDefinitionRow}
      {coachThreads : List CoachThread} {after : Db} (h : after.core = db.core) :
      StepEffect db (.elsewhere owners definitions coachThreads) after

variable {db after : Db} {event : Event}

theorem execute_error {env : Env} {ownerId : Nat} {cmd : Command} {key : String}
    {error : ActivityError} (h : (execute env db ownerId cmd key).1 = .error error) :
    (execute env db ownerId cmd key).2 = db := by
  unfold execute at h ⊢
  split
  · rename_i hrun
    rw [hrun] at h
    cases h
  · rfl

theorem execute_effect (env : Env) (db : Db) (ownerId : Nat) (cmd : Command)
    (key : String) : Effect env.now db (execute env db ownerId cmd key).2 := by
  unfold execute
  split
  · rename_i response after hrun
    exact run_effect hrun
  · exact .quiet rfl

theorem Step.effect (h : Step db event after) : StepEffect db event after := by
  cases h with
  | executed call => exact .call (execute_effect _ _ _ _ _)
  | unavailable call => exact .call (.quiet rfl)
  | planned hplan => exact .planned hplan
  | elsewhere => exact .elsewhere rfl

/-! ## A day with two activities

The smallest run in which two timers are open at once. -/

def sampleDefinition : TaskDefinitionRow where
  id := 1
  ownerId := 1
  roadmapVersionId := 1
  stableId := "w1-d1-sql"
  exerciseType := some "sql_practice"
  mappingVersion := some "v1"
  curriculumNodeId := 1
  objective := "Write one query."
  timeboxMinutes := 60
  block := .sql
  required := true
  outputContract := .object []
  passContract := .object []
  evidenceContract := .object []
  sourceReferences := []
  allowedAiRole := .tutor
  sourcePath := none
  sourceAnchor := none

def sampleStore : Db where
  owners := [1]
  days := .empty
  activities := .empty
  definitions := [sampleDefinition]
  timers := .empty
  attempts := .empty
  artifacts := .empty
  links := .empty
  selfReviews := .empty
  receipts := []
  coachThreads := []

def sampleDay : StudyDayRow where
  id := 1
  ownerId := 1
  dayType := .weekday
  status := .planned
  roadmapVersionId := 1
  localDate := 739852
  plannedMinutes := 240
  focusedMinutes := 0
  createdAt := 0
  startedAt := none
  closedAt := none

def sampleActivity (id : Nat) (id_pos : 0 < id) (id_le : id ≤ bigintMax) : ActivityRow where
  id := id
  ownerId := 1
  studyDayId := 1
  roadmapVersionId := 1
  taskDefinitionId := 1
  state := .ready
  attemptKind := none
  classification := .required
  sourceHidden := false
  optimisticVersion := 1
  strongerEvidenceActivityId := none
  startedAt := none
  outputCommittedAt := none
  completedAt := none
  id_pos := id_pos
  id_le := id_le
  taskStableIdSnapshot := "w1-d1-sql"
  taskMappingVersionSnapshot := "v1"
  taskObjectiveSnapshot := "Write one query."
  taskTimeboxMinutesSnapshot := 60
  roadmapVersionKeySnapshot := "month-1"
  assistanceMode := .none
  timeboxMinutes := 60
  replacementVersion := 1
  replacesActivityId := none
  createdAt := 0

def sampleActivities : List ActivityRow :=
  [sampleActivity 1 Nat.one_pos one_le_bigintMax, sampleActivity 2 Nat.two_pos two_le_bigintMax]

def sampleCall (second : Nat) (command : Command) (key : String) : Call where
  env :=
    { now := seconds second, savedAt := seconds second, store := none,
      parseOutput := fun _ => .error "Field required", parseStep := fun _ => none }
  ownerId := 1
  command := command
  key := key

def sampleCalls : List Call :=
  [sampleCall 0 (.start 1 1) "start-1", sampleCall 0 (.start 2 1) "start-2",
    sampleCall 30 (.heartbeat 1 2 1) "beat-1", sampleCall 30 (.heartbeat 2 2 1) "beat-2"]

def callTrace : Db → List Call → List (Transition Db Event)
  | _, [] => []
  | db, call :: rest =>
    let (outcome, after) := execute call.env db call.ownerId call.command call.key
    ⟨db, .call call outcome, after⟩ :: callTrace after rest

def afterCalls : Db → List Call → Db
  | db, [] => db
  | db, call :: rest =>
    afterCalls (execute call.env db call.ownerId call.command call.key).2 rest

theorem run_calls (db : Db) (calls : List Call) :
    Run Step db (callTrace db calls) (afterCalls db calls) := by
  induction calls generalizing db with
  | nil => exact Run.refl
  | cons call rest ih => exact (Run.single (Step.executed db call)).append (ih _)

def samplePlanned : Db := sampleStore.plan sampleDay sampleActivities

def sampleFinal : Db := afterCalls samplePlanned sampleCalls

def sampleTrace : List (Transition Db Event) :=
  ⟨sampleStore, .planned sampleDay sampleActivities, samplePlanned⟩ ::
    callTrace samplePlanned sampleCalls

theorem initial_sampleStore : Initial sampleStore :=
  ⟨rfl, rfl, rfl, rfl⟩

theorem planned_sample : Planned sampleStore sampleDay sampleActivities := by
  constructor <;> decide

theorem run_sample : Run Step sampleStore sampleTrace sampleFinal :=
  (Run.single (Step.planned planned_sample)).append (run_calls samplePlanned sampleCalls)

end TamForge.Learning.ActivityService
