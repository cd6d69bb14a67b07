import TamForge.Evidence.Seed
import TamForge.Reviews.Evidence
import TamForge.Reviews.Requests

/-!
# Runs of the review worker

Any number of calls of `process` share the database and the ledger with the
requests and with everything else.  A call is cut at its commits: it begins,
records its evidence and stores its review, and it may stop for good in
between.  Whoever claims the job next begins again, with an outcome of its own.
-/

namespace TamForge.Reviews

open Agents Evidence Jobs Learning Models
open ProofSupport

/-- Where a call of `process` stands.  `configured` says whether its service
was built with a ledger. -/
inductive Phase
  | idle
  | reviewing (configured : Bool) (begun : Begun)
  | reviewed (begun : Begun) (draft : ReviewDraft)

structure ProcessWorld where
  world : World
  ledger : Ledger
  calls : Nat → Phase

namespace ProcessWorld

def setCall (w : ProcessWorld) (i : Nat) (phase : Phase) : ProcessWorld :=
  { w with calls := fun j => if j = i then phase else w.calls j }

def setDb (w : ProcessWorld) (db : Db) : ProcessWorld :=
  { w with world := { w.world with db := db } }

def tick (w : ProcessWorld) (now : Instant) : ProcessWorld :=
  { w with world := { w.world with clock := now } }

end ProcessWorld

def claimed (db : Db) (ownerId activityId : Nat) : Bool :=
  db.queue.jobs.any fun job => job.ownerId == ownerId && job.kind == reviewJobKind &&
    job.payload.subjectId == activityId && job.state == .running

def draftOf (begun : Begun) (model : String) (outcome : ReviewOutcome) (note : EvidenceNote) :
    ReviewDraft where
  rubricSlug := begun.rubric.slug
  rubricVersion := begun.rubric.version
  model := model
  outcome := outcome
  evidenceStatus := note.status
  evidenceEventIds := note.eventIds

/-- An action of the call with the given number.  `outcome` is what the
reviewer returned and `reading` the service's clock. -/
inductive CallAction
  | start (i ownerId activityId : Nat) (configured : Bool)
  | record (i : Nat) (model : String) (outcome : ReviewOutcome) (reading : Instant)
      (reply : StorageReply)
  | store (i : Nat)
  | stop (i : Nat)

/-- `process`, one transaction at a time.  An action that the call cannot make
now is `none`. -/
def callAct (w : ProcessWorld) (now : Instant) : CallAction → Option ProcessWorld
  | .start i ownerId activityId configured =>
    match w.calls i with
    | .idle =>
      if claimed w.world.db ownerId activityId then
        match beginProcess w.world.db ownerId activityId with
        | .ok (.inr begun) => some (w.setCall i (.reviewing configured begun))
        | .ok (.inl _) | .error _ => some w
      else none
    | _ => none
  | .record i model outcome reading reply =>
    match w.calls i with
    | .reviewing configured begun =>
      match recordEvidence w.world.db w.ledger reading now reply configured begun outcome with
      | (.ok note, ledger) => some ({ w with ledger := ledger }.setCall i
          (.reviewed begun (draftOf begun model outcome note)))
      | (.error _, ledger) => some ({ w with ledger := ledger }.setCall i .idle)
    | _ => none
  | .store i =>
    match w.calls i with
    | .reviewed begun draft =>
      match storeReview w.world.db now begun.loaded.activity.ownerId
          begun.loaded.activity.id draft with
      | .ok (_, db) => some ((w.setDb db).setCall i .idle)
      | .error _ => some (w.setCall i .idle)
    | _ => none
  | .stop i => some (w.setCall i .idle)

/-- Anything the requests, the queue and the rest of the program do, or an
action of a call.  Reviews are stored by calls only. -/
inductive ProcessAction
  | outside (action : Action)
  | call (action : CallAction)

structure ProcessEvent where
  now : Instant
  action : ProcessAction

inductive ProcessActs (w : ProcessWorld) (now : Instant) : ProcessAction → ProcessWorld → Prop
  | outside {action : Action} {world : World} :
      (∀ ownerId activityId draft, action ≠ .store ownerId activityId draft) →
      Acts w.world now action world →
      ProcessActs w now (.outside action) { w with world := world }
  | call {action : CallAction} {after : ProcessWorld} :
      callAct w now action = some after → ProcessActs w now (.call action) after

/-- One action at a clock that does not go back. -/
def ProcessStep (w : ProcessWorld) (e : ProcessEvent) (w' : ProcessWorld) : Prop :=
  w.world.clock ≤ e.now ∧ ∃ after, ProcessActs w e.now e.action after ∧ w' = after.tick e.now

/-- Nobody has requested a review and the ledger holds no evidence. -/
structure ProcessInitial (w : ProcessWorld) : Prop where
  world : Initial w.world
  reviews : w.world.db.reviews = []
  evaluations : w.ledger.evaluations.rows = []
  events : w.ledger.events.rows = []
  receipts : w.ledger.receipts = []
  idle : ∀ i, w.calls i = .idle

def ProcessRun (start : ProcessWorld) (trace : List (Transition ProcessWorld ProcessEvent))
    (w : ProcessWorld) : Prop :=
  ProcessInitial start ∧ Run ProcessStep start trace w

/-! ## Sample runs -/

/-- A timed SQL assessment of owner `1`, as the learner committed it. -/
def assessmentAttempt : Learning.Attempt where
  id := 3
  ownerId := 1
  activityInstanceId := 7
  attemptKind := .noAiAssessment
  originalText := some (.document (.object [
    ("task_context", .object [("exercise_type", .string "sql_no_ai_timed_assessment"),
      ("mapping_version", .string "seed-v1")]),
    ("output", .object [("sql", .string "SELECT 1;")])]))
  originalMarkdown := none
  originalSql := some "SELECT 1;"
  prompt := "Reconcile the ledger."
  assistanceMode := .none
  committedAt := 5
  id_pos := id_three_pos
  id_le := three_le_bigintMax

def assessmentActivity : ActivityInstance :=
  { sampleActivity with attemptKind := some .noAiAssessment }

/-- The sample before its review is requested, with the shipped release. -/
def assessmentDb : Db :=
  { sampleDb with
    definitions := [⟨1, 1, 1, "w01-d6-block", some "sql_no_ai_timed_assessment", some "seed-v1"⟩]
    activities := [assessmentActivity]
    attempts := [assessmentAttempt]
    configs := [⟨1, 1, "release-1", .ok shippedBundle⟩] }

def assessmentLedger : Ledger where
  seeds := seedConfig 1 1 shippedBundle Seeds.empty
  artifacts := []
  artifactLinks := []
  evaluations := .empty
  dimensionScores := .empty
  events := .empty
  snapshots := .empty
  portfolioScores := .empty
  receipts := []

def reviewDb (queue : Jobs.Store) : Db :=
  { assessmentDb with
    activities := [{ assessmentActivity with state := .aiProcessing, optimisticVersion := 5 }]
    statuses := [⟨1, 7, .analyzing, .analyzing, none, none, 30, 30⟩]
    queue := queue }

def assessmentLoaded : Loaded where
  activity := { assessmentActivity with state := .aiProcessing, optimisticVersion := 5 }
  day := ⟨1, 1, .weekday, .inProgress⟩
  definition := ⟨1, 1, 1, "w01-d6-block", some "sql_no_ai_timed_assessment", some "seed-v1"⟩
  attempt := assessmentAttempt
  selfReview := ⟨2, 1, 7, 3, 3, 8, three_le_four⟩

def assessmentBegun : Begun where
  loaded := assessmentLoaded
  bundle := shippedBundle
  configVersionKey := "release-1"
  rubric := blockRubric
  output := [("sql", .string "SELECT 1;")]

theorem noInstruction_bounded : BoundedText 0 500 "" := by decide

def sampleFinding : ReviewFinding where
  statement := "Clear."
  statement_bounded := by decide
  instruction_bounded := noInstruction_bounded

theorem sampleScore_nonneg : (0 : Rat) ≤ 3 := by
  norm_num

def sampleOutcome : ReviewOutcome where
  verdict := "Correct."
  dimensions := [{
    slug := "correctness"
    score := 3
    rationale := "Sound."
    evidence := "SELECT 1;"
    slug_bounded := by decide
    score_nonneg := sampleScore_nonneg
    score_le := by decide +kernel
    rationale_bounded := by decide
    evidence_bounded := by decide }]
  strengths := [sampleFinding, sampleFinding]
  corrections := [sampleFinding, sampleFinding]
  nextPractice := "Joins."
  verdict_bounded := by decide
  dimensions_bounded := by decide
  strengths_two := rfl
  corrections_two := rfl
  nextPractice_bounded := by decide

def assessmentCommand (evaluatedAt : Instant) : EvidenceEvaluationCommand :=
  evidenceCommand assessmentBegun sampleOutcome evaluatedAt assessmentExercise
    [("sql_reconciliation", blockRows.map DimensionRow.slug)]

def assessmentJob : Notifications.BackgroundJob :=
  newJob 1 1 (reviewCommand assessmentLoaded 40) (reviewIdempotencyKey 7 3) 40

def assessmentQueue : Jobs.Store :=
  ⟨[1], [assessmentJob], 2, [Store.eventRow 1 assessmentJob .queued 40], 2⟩

/-- When the lease of the first worker is over. -/
def late : Instant := 200000000

def claimedQueue : Jobs.Store := (exec assessmentQueue 50 (.claim sampleClaim [])).2

def reclaimedQueue : Jobs.Store := (exec claimedQueue late (.reclaimExpired 10 [])).2

def retriedQueue : Jobs.Store := (exec reclaimedQueue late (.claim sampleClaim [])).2

def assessmentStart : ProcessWorld where
  world := { db := assessmentDb, clock := 10, tasks := fun _ => .idle }
  ledger := assessmentLedger
  calls := fun _ => .idle

theorem processInitial_assessmentStart : ProcessInitial assessmentStart where
  world := {
    queue := ⟨[1], 10, [], Run.refl⟩
    owners_pos := by decide
    owners := by decide
    keyed := by decide
    statuses := by simp [assessmentStart, assessmentDb, sampleDb]
    idle := fun _ => rfl
    unprocessed := by decide
    unqueued := by decide }
  reviews := rfl
  evaluations := rfl
  events := rfl
  receipts := rfl
  idle := fun _ => rfl

def assessmentWorld (tasks : Nat → Task) (queue : Jobs.Store) (clock : Instant) (ledger : Ledger)
    (calls : Nat → Phase) : ProcessWorld :=
  ⟨⟨reviewDb queue, clock, tasks⟩, ledger, calls⟩

end TamForge.Reviews
