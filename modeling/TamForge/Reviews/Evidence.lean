import TamForge.Evidence.Repository
import TamForge.Reviews.Service

/-!
# Recording a review as evidence

`build_evidence_command` and `_record_evidence`, and the first transaction of
`process`, which hands them what they work on.  What the prompt of the reviewer
says is left out; a review is whatever outcome it returns.
-/

namespace TamForge.Reviews

open Agents Evidence Learning Models ProofSupport

/-! ## The first transaction of `process` -/

def attemptPayload (attempt : Learning.Attempt) : List (String × Json) :=
  match attempt.originalText with
  | none => [("output", .object [("text", .string "")])]
  | some (.plain text) => [("output", .object [("text", .string text)])]
  | some (.document (.object fields)) => fields
  | some (.document value) => [("output", .object [("text", .string value.pyStr)])]

/-- What `process` carries out of its first transaction. -/
structure Begun where
  loaded : Loaded
  bundle : ConfigBundle
  configVersionKey : String
  rubric : RubricConfig
  output : List (String × Json)

/-- The first transaction of `process`: the review that is already stored, or
the work to do.  `_request_for` gives the rubric and the output. -/
def beginProcess (db : Db) (ownerId activityId : Nat) :
    Except ReviewError (ActivityReview ⊕ Begun) := do
  let some loaded := db.load ownerId activityId
    | throw (.invalid "the activity or its self-reviewed attempt is missing")
  if let some existing := db.review? ownerId activityId then
    return .inl existing
  let (bundle, configVersionKey) ← config db ownerId
  let some rubric := bundle.rubric blockRubricSlug
    | throw (.invalid "the seeded configuration has no block rubric: 'tam_block'")
  let .object output := Json.get (attemptPayload loaded.attempt) "output"
    | throw (.invalid "the committed attempt has no output to review")
  return .inr ⟨loaded, bundle, configVersionKey, rubric, output⟩

/-! ## The evidence command -/

/-- `dimensions[i::n]` -/
def strided (dimensions : List String) (i n : Nat) : List String :=
  (dimensions.zipIdx.filter fun item => item.2 % n = i).map Prod.fst

def assignDimensions (dimensions skills : List String) : List (String × List String) :=
  if skills = [] ∨ dimensions.length < skills.length then []
  else skills.zipIdx.map fun item => (item.1, strided dimensions item.2 skills.length)

/-- What building a command can raise.  Only `invalid` is expected. -/
inductive BuildFailure
  | invalid (message : String)
  | scoring (message : String)
  | validation
deriving DecidableEq

/-- `bool(text)` of a nullable column. -/
def hasText (text : Option String) : Bool := text.any fun text => text != ""

def written (attempt : Learning.Attempt) : Bool :=
  hasText attempt.originalMarkdown || hasText attempt.originalSql

def committedExercise (loaded : Loaded) (bundle : ConfigBundle) :
    Except BuildFailure ExerciseTypeConfig :=
  match Json.get (attemptPayload loaded.attempt) "task_context" with
  | .object context =>
    let named := Json.get context "exercise_type"
    let slug := if named.truthy then named.pyStr else loaded.definition.exerciseType.getD ""
    match bundle.exercise slug with
    | none => .error (.invalid
        ("exercise type '" ++ slug ++ "' is not in the configuration"))
    | some exercise => .ok exercise
  | _ => .error (.invalid "the committed attempt carries no task context")

def selectedCompetency (exercise : ExerciseTypeConfig) (output : List (String × Json)) :
    Option String := do
  let field ← exercise.requiredPrecommitField
  match Json.get output field.text with
  | .string value => if value = "" then none else some value
  | _ => none

def commandConditions (attempt : Learning.Attempt) (selected : Option String) : List ConditionCode :=
  (if written attempt then [.spokenOrWrittenEnglish] else []) ++
    (if selected.isSome then [.reviewedDynamicImpact] else [])

def impactOf (exercise : ExerciseTypeConfig) (conditionsMet : List ConditionCode)
    (selected : Option String) (skillSlug : String) : Except BuildFailure (List String) := do
  let resolved ← (resolveSkillImpact exercise skillSlug conditionsMet selected
    selected.isSome).mapError fun error => .scoring error.message
  return if 0 < resolved.weight then [skillSlug] else []

def commandSkills (exercise : ExerciseTypeConfig) (conditionsMet : List ConditionCode)
    (selected : Option String) : Except BuildFailure (List String) := do
  let mapped ← (exercise.impacts.map SkillImpactConfig.skillSlug).mapM
    (impactOf exercise conditionsMet selected)
  let skills := mapped.flatten
  match selected with
  | none => return skills
  | some slug =>
    if slug ∈ skills then return skills
    else do
      let dynamic ← impactOf exercise conditionsMet selected slug
      return skills ++ dynamic

def dimensionInput (outcome : ReviewOutcome) (dimension : RubricDimensionConfig) :
    DimensionEvaluationInput where
  dimensionSlug := dimension.slug
  availability := .scored
  score := some (min dimension.maximum (((outcome.dimensions.reverse.find? fun item =>
    item.slug = dimension.slug).map ScoredReviewDimension.score).getD 0))

def evidenceCommand (begun : Begun) (outcome : ReviewOutcome) (evaluatedAt : Instant)
    (exercise : ExerciseTypeConfig) (subsets : List (String × List String)) :
    EvidenceEvaluationCommand where
  activityId := begun.loaded.activity.id
  attemptId := begun.loaded.attempt.id
  configVersionKey := begun.configVersionKey
  exerciseType := exercise.slug
  mappingVersion := exercise.mappingVersion
  formulaVersion := begun.bundle.formula.version
  rubricSlug := begun.rubric.slug
  rubricVersion := begun.rubric.version
  practiceMode := exercise.evidenceMode
  assistance :=
    if begun.loaded.attempt.assistanceMode = .hintLadder then .aiHintsDuringAttempt
    else .aiAfterCommittedAttempt
  evaluator := .aiRubricReviewer
  difficulty := .standard
  aiRole := .reviewer
  evaluatedAt := evaluatedAt
  transcriptAvailable := false
  audioAvailable := false
  writtenEnglishAvailable := written begun.loaded.attempt
  scoredRecording := false
  dimensions := begun.rubric.dimensions.map (dimensionInput outcome)
  skillDimensionSubsets := subsets.map fun subset => ⟨subset.1, subset.2⟩

def buildEvidenceCommand (begun : Begun) (outcome : ReviewOutcome) (evaluatedAt : Instant) :
    Except BuildFailure EvidenceEvaluationCommand := do
  let exercise ← committedExercise begun.loaded begun.bundle
  let selected := selectedCompetency exercise begun.output
  let skills ← commandSkills exercise (commandConditions begun.loaded.attempt selected) selected
  let subsets := assignDimensions (begun.rubric.dimensions.map RubricDimensionConfig.slug) skills
  raiseFirst [(!skills.isEmpty && subsets.isEmpty,
    .invalid "more mapped skills than rubric dimensions")]
  let command := evidenceCommand begun outcome evaluatedAt exercise subsets
  raiseFirst [(!checkCommand command, .validation)]
  return command

/-! ## Recording it -/

/-- The tables of reviews that the ledger reads. -/
def Db.lineage (db : Db) : Lineage where
  owners := db.queue.owners
  configs := db.configs
  definitions := db.definitions
  activities := db.activities
  attempts := db.attempts
  selfReviews := db.selfReviews

/-- The class name and message of an `EvidenceError`. -/
def evidenceError? : EvidenceFailure → Option String
  | .notFound message => some ("EvidenceNotFound: " ++ message)
  | .conflict message => some ("EvidenceConflict: " ++ message)
  | .invalidRequest message => some ("EvidenceInvalidRequest: " ++ message)
  | .storageUnavailable message => some ("EvidenceStorageUnavailable: " ++ message)
  | .scoring _ | .estimate _ | .portfolio _ | .contract _ | .attribute _ | .assertion _ => none

/-- What passes through `_record_evidence` uncaught. -/
inductive RecordFailure
  | build (failure : BuildFailure)
  | ledger (failure : EvidenceFailure)

/-- What the storage does with the evidence transaction: it answers, it fails
before the commit, or it fails after it. -/
inductive StorageReply
  | answered | failed | failedAfterCommit
deriving DecidableEq

structure EvidenceNote where
  status : String
  eventIds : List Nat

def EvidenceNote.skipped : EvidenceNote :=
  ⟨"skipped: evidence recording is not configured", []⟩

def EvidenceNote.unrecorded (message : String) : EvidenceNote := ⟨"unrecorded: " ++ message, []⟩

def EvidenceNote.recorded (eventIds : List Nat) : EvidenceNote := ⟨"recorded", eventIds⟩

def EvidenceNote.storageFailed : EvidenceNote :=
  .unrecorded "EvidenceStorageUnavailable: evidence storage is unavailable"

/-- `except EvidenceError` -/
def noteOf (failure : EvidenceFailure) : Except RecordFailure EvidenceNote :=
  match evidenceError? failure with
  | some message => .ok (.unrecorded message)
  | none => .error (.ledger failure)

def recordCommand (db : Db) (ledger : Ledger) (now : Instant) (reply : StorageReply)
    (loaded : Loaded) (command : EvidenceEvaluationCommand) :
    Except RecordFailure EvidenceNote × Ledger :=
  if reply = .failed then (.ok .storageFailed, ledger)
  else
    match record db.lineage ledger now loaded.activity.ownerId command
        (reviewIdempotencyKey loaded.activity.id loaded.attempt.id) with
    | .error failure => (noteOf failure, ledger)
    | .ok (result, ledger) =>
      if reply = .failedAfterCommit then (.ok .storageFailed, ledger)
      else (.ok (.recorded result.evidenceEventIds), ledger)

/-- Never before the evidence it judges, whatever the clocks say. -/
def evaluatedAt (loaded : Loaded) (reading : Instant) : Instant :=
  max reading (max loaded.attempt.committedAt loaded.selfReview.submittedAt)

/-- `_record_evidence`.  `reading` is the clock of the service, `now` that of
the repository; `configured` says whether the service has a ledger. -/
def recordEvidence (db : Db) (ledger : Ledger) (reading now : Instant) (reply : StorageReply)
    (configured : Bool) (begun : Begun) (outcome : ReviewOutcome) :
    Except RecordFailure EvidenceNote × Ledger :=
  if configured = false then (.ok .skipped, ledger)
  else
    match buildEvidenceCommand begun outcome (evaluatedAt begun.loaded reading) with
    | .error (.invalid message) => (.ok (.unrecorded message), ledger)
    | .error failure => (.error (.build failure), ledger)
    | .ok command => recordCommand db ledger now reply begun.loaded command

end TamForge.Reviews
