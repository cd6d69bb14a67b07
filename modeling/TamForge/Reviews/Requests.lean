import TamForge.Reviews.Service

/-!
# Runs of review requests

Any number of calls of `request` and `enqueue_pending` work on one database,
each cut at its commits.  Between two transactions of a call the others, the
queue and the rest of the program may do anything, and a call may stop for
good at any point: the process crashes, or a statement fails.
-/

namespace TamForge.Reviews

open Jobs Learning Models Notifications
open ProofSupport Today

/-- A call in progress.  `remaining` are the rows it has yet to request; when
`enqueueing` is set, it is between the two transactions of a row. -/
structure Task where
  strict : Bool
  remaining : List (Nat × Nat)
  enqueueing : Option (Nat × Loaded)

def Task.idle : Task where
  strict := false
  remaining := []
  enqueueing := none

structure World where
  db : Db
  clock : Instant
  tasks : Nat → Task

def World.setTask (w : World) (i : Nat) (task : Task) : World :=
  { w with tasks := fun j => if j = i then task else w.tasks j }

def reachedReviewer : ActivityState → Bool
  | .aiProcessing | .feedbackReady | .correctionDue | .demonstrated | .needsWork => true
  | .ready | .active | .paused | .outputCommitted | .selfReviewComplete | .incomplete
  | .superseded => false

/-- What the rest of the program may do to the tables of reviews.  It plans and
works on activities and seeds configurations; it does not touch the queue, the
reviews or the processing statuses, and of an activity that has reached the
reviewer it changes neither the row nor what `_load` joins to it. -/
structure Learns (db db' : Db) : Prop where
  queue : db'.queue = db.queue
  reviews : db'.reviews = db.reviews
  nextReviewId : db'.nextReviewId = db.nextReviewId
  activityEvents : db'.activityEvents = db.activityEvents
  statuses : db'.statuses = db.statuses
  keyed : (db'.activities.map activityKey).Nodup
  owners : ∀ activity ∈ db'.activities, activity.ownerId ∈ db'.queue.owners
  kept : ∀ ownerId activityId activity, db.activity? ownerId activityId = some activity →
    reachedReviewer activity.state = true →
    db'.activity? ownerId activityId = some activity ∧
      db'.load ownerId activityId = db.load ownerId activityId
  entered : ∀ ownerId activityId activity, db'.activity? ownerId activityId = some activity →
    reachedReviewer activity.state = true → db.activity? ownerId activityId = some activity

inductive Action
  | request (i ownerId activityId : Nat)
  | sweep (i limit : Nat)
  | first (i : Nat)
  | second (i : Nat) (availableAt : Instant)
  | crash (i : Nat)
  | store (ownerId activityId : Nat) (draft : ReviewDraft)
  | queue (command : Jobs.Command) (outcome : Jobs.Outcome)
  | learn

structure Event where
  now : Instant
  action : Action

/-- The next row of a call is done; what it still has to request is `rest`. -/
def Task.next (task : Task) (rest : List (Nat × Nat)) (enqueueing : Option (Nat × Loaded)) : Task :=
  { task with remaining := rest, enqueueing := enqueueing }

/-- The effect of one action on the database and the calls.  Only the review
service enqueues jobs of its kind. -/
inductive Acts (w : World) (now : Instant) : Action → World → Prop
  | request {i ownerId activityId : Nat} :
      w.tasks i = .idle →
      Acts w now (.request i ownerId activityId)
        (w.setTask i ⟨true, [(ownerId, activityId)], none⟩)
  | sweep {i limit : Nat} :
      w.tasks i = .idle →
      Acts w now (.sweep i limit) (w.setTask i ⟨false, pendingRows w.db limit, none⟩)
  | firstDone {i ownerId activityId : Nat} {rest : List (Nat × Nat)} {found : Option Loaded}
      {db : Db} :
      (w.tasks i).remaining = (ownerId, activityId) :: rest → (w.tasks i).enqueueing = none →
      beginRequest w.db now ownerId activityId (w.tasks i).strict = .ok (found, db) →
      Acts w now (.first i) ({ w with db := db }.setTask i
        ((w.tasks i).next rest (found.map fun loaded => (ownerId, loaded))))
  | firstRaised {i ownerId activityId : Nat} {rest : List (Nat × Nat)} {error : ReviewError} :
      (w.tasks i).remaining = (ownerId, activityId) :: rest → (w.tasks i).enqueueing = none →
      beginRequest w.db now ownerId activityId (w.tasks i).strict = .error error →
      Acts w now (.first i) (w.setTask i .idle)
  | secondDone {i ownerId : Nat} {availableAt : Instant} {loaded : Loaded} {job : JobResponse}
      {db : Db} :
      (w.tasks i).enqueueing = some (ownerId, loaded) →
      finishRequest w.db availableAt now ownerId loaded = .ok (job, db) →
      Acts w now (.second i availableAt) ({ w with db := db }.setTask i
        ((w.tasks i).next (w.tasks i).remaining none))
  | secondRaised {i ownerId : Nat} {availableAt : Instant} {loaded : Loaded}
      {error : ReviewError} :
      (w.tasks i).enqueueing = some (ownerId, loaded) →
      finishRequest w.db availableAt now ownerId loaded = .error error →
      Acts w now (.second i availableAt) (w.setTask i .idle)
  | crash {i : Nat} : Acts w now (.crash i) (w.setTask i .idle)
  | store {ownerId activityId : Nat} {draft : ReviewDraft} {review : ActivityReview} {db : Db} :
      storeReview w.db now ownerId activityId draft = .ok (review, db) →
      Acts w now (.store ownerId activityId draft) { w with db := db }
  | queue {command : Jobs.Command} {outcome : Jobs.Outcome} {queue : Jobs.Store} :
      (∀ ownerId enqueued key, command = .enqueue ownerId enqueued key →
        enqueued.kind ≠ reviewJobKind) →
      exec w.db.queue now command = (outcome, queue) →
      Acts w now (.queue command outcome) { w with db := { w.db with queue := queue } }
  | learn {db : Db} : Learns w.db db → Acts w now .learn { w with db := db }

/-- One action at a clock that does not go back. -/
def Step (w : World) (e : Event) (w' : World) : Prop :=
  w.clock ≤ e.now ∧ w'.clock = e.now ∧ ∃ after, Acts w e.now e.action after ∧
    w' = { after with clock := e.now }

/-- What the schema promises of a database nobody has requested a review in:
the queue has done nothing but queue work, owners are real, statuses are valid,
no activity is being processed and no call is in progress. -/
structure Initial (w : World) : Prop where
  queue : ∃ owners start trace, QueueRun owners start trace ⟨w.db.queue, w.clock⟩
  owners_pos : ∀ ownerId ∈ w.db.queue.owners, 0 < ownerId
  owners : ∀ activity ∈ w.db.activities, activity.ownerId ∈ w.db.queue.owners
  keyed : (w.db.activities.map activityKey).Nodup
  statuses : ∀ status ∈ w.db.statuses, StatusInv w.clock status
  idle : ∀ i, w.tasks i = .idle
  unprocessed : ∀ activity ∈ w.db.activities, activity.state ≠ .aiProcessing
  unqueued : ∀ job ∈ w.db.queue.jobs, job.kind ≠ reviewJobKind

def RequestRun (start : World) (trace : List (Transition World Event)) (w : World) : Prop :=
  Initial start ∧ Run Step start trace w

/-! ## Sample runs -/

/-- A self-reviewed activity of owner `1`. -/
def sampleActivity : ActivityInstance where
  id := 7
  ownerId := 1
  studyDayId := 1
  roadmapVersionId := 1
  taskDefinitionId := 1
  state := .selfReviewComplete
  attemptKind := some .attemptA
  classification := .required
  sourceHidden := false
  optimisticVersion := 4
  strongerEvidenceActivityId := none
  startedAt := some 0
  outputCommittedAt := some 5
  completedAt := none
  id_pos := id_seven_pos
  id_le := seven_le_bigintMax

def sampleAttempt : Learning.Attempt where
  id := 3
  ownerId := 1
  activityInstanceId := 7
  attemptKind := .attemptA
  originalText := none
  originalMarkdown := some "An answer."
  originalSql := none
  prompt := "Explain the incident."
  assistanceMode := .none
  committedAt := 5
  id_pos := id_three_pos
  id_le := three_le_bigintMax

def sampleLoaded : Loaded where
  activity := sampleActivity
  day := ⟨1, 1, .weekday, .inProgress⟩
  definition := ⟨1, 1, 1, "w01-d1-block", some "incident_response", some "1"⟩
  attempt := sampleAttempt
  selfReview := ⟨2, 1, 7, 3, 3, 8, three_le_four⟩

/-- A database with this one activity and an empty queue. -/
def sampleDb : Db where
  queue := Store.empty [1]
  days := [sampleLoaded.day]
  definitions := [sampleLoaded.definition]
  activities := [sampleActivity]
  attempts := [sampleAttempt]
  selfReviews := [sampleLoaded.selfReview]
  configs := []
  statuses := []
  reviews := []
  nextReviewId := 1
  activityEvents := []

def sampleStart : World where
  db := sampleDb
  clock := 10
  tasks := fun _ => .idle

theorem initial_sampleStart : Initial sampleStart where
  queue := ⟨[1], 10, [], Run.refl⟩
  owners_pos := by decide
  owners := by decide
  keyed := by decide
  statuses := by simp [sampleStart, sampleDb]
  idle := fun _ => rfl
  unprocessed := by decide
  unqueued := by decide

/-- The sample after the first transaction of a request at `now`. -/
def sampleBegun (now : Instant) : Db :=
  { sampleDb with
    activities := [{ sampleActivity with state := .aiProcessing, optimisticVersion := 5 }]
    statuses := [⟨1, 7, .analyzing, .analyzing, none, none, now, now⟩] }

def sampleSwept : World :=
  { sampleStart with clock := 20 }.setTask 0 ⟨false, [(1, 7)], none⟩

def sampleBetween : World :=
  { sampleSwept with db := sampleBegun 30, clock := 30 }.setTask 0
    ⟨false, [], some (1, sampleLoaded)⟩

def sampleTrace : List (Transition World Event) :=
  [⟨sampleStart, ⟨20, .sweep 0 20⟩, sampleSwept⟩, ⟨sampleSwept, ⟨30, .first 0⟩, sampleBetween⟩]

theorem requestRun_sampleTrace : RequestRun sampleStart sampleTrace sampleBetween := by
  have hsweep : Step sampleStart ⟨20, .sweep 0 20⟩ sampleSwept :=
    ⟨by decide, rfl, _, .sweep rfl, rfl⟩
  have hbegin : beginRequest sampleSwept.db 30 1 7 false =
      .ok (some sampleLoaded, sampleBegun 30) := rfl
  have hfst : Step sampleSwept ⟨30, .first 0⟩ sampleBetween := by
    exact ⟨by decide, rfl, _, .firstDone rfl rfl hbegin, rfl⟩
  exact ⟨initial_sampleStart, (Run.single hsweep).append (Run.single hfst)⟩

/-- The job that the second transaction queues at `40`. -/
def sampleJob : BackgroundJob :=
  newJob 1 1 (reviewCommand sampleLoaded 40) (reviewIdempotencyKey 7 3) 40

def sampleRequested : World :=
  { sampleBetween with
    db := { sampleBegun 30 with
      queue := ⟨[1], [sampleJob], 2, [Store.eventRow 1 sampleJob .queued 40], 2⟩ }
    clock := 40 }.setTask 0 ⟨false, [], none⟩

theorem finishRequest_sample : finishRequest sampleBetween.db 40 40 1 sampleLoaded =
    .ok (Jobs.response sampleJob, sampleRequested.db) := by
  rfl

theorem requestRun_sampleRequested : RequestRun sampleStart
    (sampleTrace ++ [⟨sampleBetween, ⟨40, .second 0 40⟩, sampleRequested⟩]) sampleRequested := by
  obtain ⟨hinit, hrun⟩ := requestRun_sampleTrace
  have hsec : Step sampleBetween ⟨40, .second 0 40⟩ sampleRequested :=
    ⟨by decide, rfl, _, .secondDone rfl finishRequest_sample, rfl⟩
  exact ⟨hinit, hrun.append (Run.single hsec)⟩

end TamForge.Reviews
