import TamForge.Learning.Models

/-!
# Output contracts

`learning/contracts.py`: the committed outputs by kind, and the snapshot that
binds an output to the task it was assigned for.  Reading a payload into its
model is pydantic's work and stays a parameter; a model carries the bounds that
its field types state.
-/

namespace TamForge.Learning

open Models ProofSupport

/-- `Text256`, `Text4096`, `Text1M` and `Text4M`, by their number of bytes. -/
structure BoundedText (maximumBytes : Nat) where
  value : String
  nonblank : isBlank value = false
  bounded : value.utf8ByteSize ≤ maximumBytes

abbrev Text256 := BoundedText 256
abbrev Text4096 := BoundedText 4096
abbrev Text1M := BoundedText 1048576
abbrev Text4M := BoundedText (4 * 1024 * 1024)

inductive ActivityBlock
  | sql | technicalLearning | careerPipeline | correctionWarmup | tamCase
  | communicationSpoken | dailyClose | saturdayAssessment
deriving DecidableEq

def ActivityBlock.text : ActivityBlock → String
  | sql => "sql"
  | technicalLearning => "technical_learning"
  | careerPipeline => "career_pipeline"
  | correctionWarmup => "correction_warmup"
  | tamCase => "tam_case"
  | communicationSpoken => "communication_spoken"
  | dailyClose => "daily_close"
  | saturdayAssessment => "saturday_assessment"

def AssistanceMode.text : AssistanceMode → String
  | none => "none"
  | coachPreparation => "coach_preparation"
  | hintLadder => "hint_ladder"
  | timeExpired => "time_expired"
  | referenceOnly => "reference_only"

inductive OutputBody
  | reading (keyIdeas : List Text4096)
      (boundaryOrFailure tamCustomerExample unresolvedQuestion : Text4096)
  | sql (query result : Text4M) (validation explanation businessMeaning : Text4096)
      (solvingSeconds : Nat) (assistanceUsed : AssistanceMode)
  | tamCase (canonicalPrompt : Text1M)
      (canonicalFacts discoveryQuestions assumptions : List Text4096)
      (workingNotes finalArtifact : Text4M)
      (decisions risks unresolvedQuestions : List Text4096)
  | writing (requestedAction : Text4096) (facts unknowns : List Text4096)
      (tone wordOrCharacterLimit : Text256) (draftMarkdown : Text4M) (selfEditNotes : Text4096)
  | pipeline (company role stage : Text256)
      (completedAction artifactSummary nextAction : Text4096)

/-- The discriminator `kind`. -/
inductive OutputKind
  | reading | sql | tamCase | writing | pipeline
deriving DecidableEq

def OutputKind.text : OutputKind → String
  | reading => "reading"
  | sql => "sql"
  | tamCase => "case"
  | writing => "writing"
  | pipeline => "pipeline"

def OutputBody.kind : OutputBody → OutputKind
  | reading .. => .reading
  | sql .. => .sql
  | tamCase .. => .tamCase
  | writing .. => .writing
  | pipeline .. => .pipeline

/-- `ActivityOutput`: the fields of `_OutputBase` and those of the kind. -/
structure ActivityOutput where
  prompt : Text1M
  audience : Text256
  timeLimitMinutes : Nat
  domainCompetencySlug : Option String
  storyCompetencySlug : Option String
  body : OutputBody
  timeLimit_pos : 0 < timeLimitMinutes
  timeLimit_le : timeLimitMinutes ≤ 255
  domain_slug : ∀ value ∈ domainCompetencySlug, slug value = true
  story_slug : ∀ value ∈ storyCompetencySlug, slug value = true
  one_selector : domainCompetencySlug = none ∨ storyCompetencySlug = none

/-- `_ALLOWED_KINDS_BY_BLOCK` -/
def allowedKinds : ActivityBlock → List OutputKind
  | .technicalLearning => [.reading]
  | .sql => [.sql]
  | .tamCase => [.tamCase]
  | .communicationSpoken => [.tamCase, .writing]
  | .careerPipeline => [.pipeline]
  | .correctionWarmup => [.sql, .tamCase, .writing]
  | .dailyClose => [.writing]
  | .saturdayAssessment => [.sql, .tamCase, .writing]

/-- `OutputContractError`, with its message. -/
structure OutputContractError where
  message : String

structure ContractContext where
  block : ActivityBlock
  sourceHidden : Bool
  timeboxMinutes : Nat
  taskStableId : String
  exerciseType : String
  mappingVersion : String
  roadmapVersionKey : String
  taskDefinitionId : Nat

/-- `ContractContext.__post_init__` -/
def ContractContext.check (context : ContractContext) : Except OutputContractError Unit :=
  raiseFirst [
    (decide (context.timeboxMinutes = 0) || decide (255 < context.timeboxMinutes) ||
        decide (context.taskDefinitionId = 0) ||
        [context.taskStableId, context.exerciseType, context.mappingVersion,
          context.roadmapVersionKey].any isBlank,
      ⟨"activity contract context is invalid"⟩)]

structure ValidatedOutput where
  kind : OutputKind
  prompt : String
  audience : String
  canonicalPayload : Json
  originalMarkdown : Option String
  originalSql : Option String

def dumpText {limit : Nat} (text : BoundedText limit) : Json :=
  .string text.value

def dumpTexts {limit : Nat} (texts : List (BoundedText limit)) : Json :=
  .array (texts.map dumpText)

def dumpNat (n : Nat) : Json :=
  .number (toString n)

def OutputBody.dump : OutputBody → List (String × Json)
  | reading keyIdeas boundaryOrFailure tamCustomerExample unresolvedQuestion =>
    [("key_ideas", dumpTexts keyIdeas),
      ("boundary_or_failure", dumpText boundaryOrFailure),
      ("tam_customer_example", dumpText tamCustomerExample),
      ("unresolved_question", dumpText unresolvedQuestion)]
  | sql query result validation explanation businessMeaning solvingSeconds assistanceUsed =>
    [("query", dumpText query), ("result", dumpText result),
      ("validation", dumpText validation), ("explanation", dumpText explanation),
      ("business_meaning", dumpText businessMeaning),
      ("solving_seconds", dumpNat solvingSeconds),
      ("assistance_used", .string assistanceUsed.text)]
  | tamCase canonicalPrompt canonicalFacts discoveryQuestions assumptions workingNotes
      finalArtifact decisions risks unresolvedQuestions =>
      [("canonical_prompt", dumpText canonicalPrompt),
        ("canonical_facts", dumpTexts canonicalFacts),
        ("discovery_questions", dumpTexts discoveryQuestions),
        ("assumptions", dumpTexts assumptions), ("working_notes", dumpText workingNotes),
        ("final_artifact", dumpText finalArtifact), ("decisions", dumpTexts decisions),
        ("risks", dumpTexts risks), ("unresolved_questions", dumpTexts unresolvedQuestions)]
  | writing requestedAction facts unknowns tone wordOrCharacterLimit draftMarkdown
      selfEditNotes =>
      [("requested_action", dumpText requestedAction), ("facts", dumpTexts facts),
        ("unknowns", dumpTexts unknowns), ("tone", dumpText tone),
        ("word_or_character_limit", dumpText wordOrCharacterLimit),
        ("draft_markdown", dumpText draftMarkdown),
        ("self_edit_notes", dumpText selfEditNotes)]
  | pipeline company role stage completedAction artifactSummary nextAction =>
    [("company", dumpText company), ("role", dumpText role), ("stage", dumpText stage),
      ("completed_action", dumpText completedAction),
      ("artifact_summary", dumpText artifactSummary), ("next_action", dumpText nextAction)]

/-- `exclude_none` -/
def dumpOptional (name : String) : Option String → List (String × Json)
  | none => []
  | some value => [(name, .string value)]

/-- `model_dump(mode="json", exclude_none=True)` without `contract_version`. -/
def ActivityOutput.dump (output : ActivityOutput) : Json :=
  .object ([("prompt", dumpText output.prompt), ("audience", dumpText output.audience),
      ("time_limit_minutes", dumpNat output.timeLimitMinutes)] ++
    dumpOptional "domain_competency_slug" output.domainCompetencySlug ++
    dumpOptional "story_competency_slug" output.storyCompetencySlug ++
    [("kind", .string output.body.kind.text)] ++ output.body.dump)

def ContractContext.dump (context : ContractContext) : Json :=
  .object [("task_definition_id", dumpNat context.taskDefinitionId),
    ("task_stable_id", .string context.taskStableId),
    ("exercise_type", .string context.exerciseType),
    ("mapping_version", .string context.mappingVersion),
    ("roadmap_version_key", .string context.roadmapVersionKey),
    ("time_limit_minutes", dumpNat context.timeboxMinutes)]

def OutputBody.originalMarkdown : OutputBody → Option String
  | writing _ _ _ _ _ draftMarkdown _ => some draftMarkdown.value
  | tamCase _ _ _ _ _ finalArtifact _ _ _ => some finalArtifact.value
  | pipeline _ _ _ _ artifactSummary _ => some artifactSummary.value
  | reading .. | sql .. => none

def OutputBody.originalSql : OutputBody → Option String
  | sql query .. => some query.value
  | reading .. | tamCase .. | writing .. | pipeline .. => none

/-- The time the learner claims for a query is more than the block allows. -/
def OutputBody.overtime (body : OutputBody) (timeboxMinutes : Nat) : Bool :=
  match body with
  | sql _ _ _ _ _ solvingSeconds _ => decide (timeboxMinutes * 60 < solvingSeconds)
  | reading .. | tamCase .. | writing .. | pipeline .. => false

/-- `validate_output_contract`; `parse` is `_OUTPUT_ADAPTER.validate_python`,
which fails with the message of its first error. -/
def validateOutputContract (parse : Json → Except String ActivityOutput) (payload : Json)
    (context : ContractContext) : Except OutputContractError ValidatedOutput := do
  context.check
  let parsed ← (parse payload).mapError fun message =>
    ⟨"output contract is invalid: " ++ message⟩
  raiseFirst [
    (!(allowedKinds context.block).contains parsed.body.kind,
      ⟨"output kind is not allowed for this task block"⟩),
    (parsed.timeLimitMinutes != context.timeboxMinutes,
      ⟨"output time limit does not match the assigned task"⟩),
    (parsed.body.kind == .reading && !context.sourceHidden,
      ⟨"source must be hidden before reading recall is committed"⟩),
    (parsed.body.overtime context.timeboxMinutes,
      ⟨"SQL solving time exceeds the assigned time limit"⟩)]
  return {
    kind := parsed.body.kind,
    prompt := parsed.prompt.value,
    audience := parsed.audience.value,
    canonicalPayload := .object [("contract_version", dumpNat 1),
      ("task_context", context.dump), ("output", parsed.dump)],
    originalMarkdown := parsed.body.originalMarkdown,
    originalSql := parsed.body.originalSql }

end TamForge.Learning
