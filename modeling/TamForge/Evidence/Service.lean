import TamForge.Evidence.Scoring
import TamForge.Learning.Models

/-!
# The evaluation command

`evidence/schemas.py`: the write contract of the ledger.  `checkCommand` is
what pydantic checks when a command is built; it says nothing about the
configuration the command names.
-/

namespace TamForge.Evidence

open Models ProofSupport.Decimals

inductive Availability
  | scored | notApplicable | unavailable
deriving DecidableEq

structure DimensionEvaluationInput where
  dimensionSlug : String
  availability : Availability
  score : Option Rat := none
  evidenceArtifactIds : List Nat := []
  evidenceObservationIds : List Nat := []
deriving DecidableEq

structure SkillDimensionSubsetInput where
  skillSlug : String
  dimensionSlugs : List String
deriving DecidableEq

inductive AiRole
  | none | planner | tutor | coach | interviewer | reviewer | analyst
deriving DecidableEq

structure EvidenceEvaluationCommand where
  activityId : Nat
  attemptId : Nat
  configVersionKey : String
  exerciseType : String
  mappingVersion : String
  formulaVersion : String
  rubricSlug : String
  rubricVersion : String
  practiceMode : EvidenceMode
  assistance : AssistanceCode
  evaluator : EvaluatorKind
  difficulty : DifficultyCode
  aiRole : AiRole
  evaluatedAt : Instant
  artifactIds : List Nat := []
  observationIds : List Nat := []
  transcriptAvailable : Bool
  audioAvailable : Bool
  writtenEnglishAvailable : Bool
  scoredRecording : Bool
  dimensions : List DimensionEvaluationInput
  skillDimensionSubsets : List SkillDimensionSubsetInput := []
deriving DecidableEq

/-- At most 64 positive identities, all distinct. -/
def referencesValid (ids : List Nat) : Bool :=
  ids.length ≤ 64 && ids.all (0 < ·) && decide ids.Nodup

def DimensionEvaluationInput.valid (input : DimensionEvaluationInput) : Bool :=
  slug input.dimensionSlug &&
    (input.availability == .scored) == input.score.isSome &&
    input.score.all (fun score => decide (0 ≤ score ∧ score ≤ 20 ∧ HasPlaces 3 score)) &&
    referencesValid input.evidenceArtifactIds && referencesValid input.evidenceObservationIds

def SkillDimensionSubsetInput.valid (subset : SkillDimensionSubsetInput) : Bool :=
  slug subset.skillSlug && subset.dimensionSlugs.all slug &&
    1 ≤ subset.dimensionSlugs.length && subset.dimensionSlugs.length ≤ 64 &&
    decide subset.dimensionSlugs.Nodup

/-- Validation of an `EvidenceEvaluationCommand`. -/
def checkCommand (command : EvidenceEvaluationCommand) : Bool :=
  decide (0 < command.activityId) && decide (0 < command.attemptId) &&
    versionKey command.configVersionKey && slug command.exerciseType &&
    versionKey command.mappingVersion && versionKey command.formulaVersion &&
    slug command.rubricSlug && versionKey command.rubricVersion &&
    referencesValid command.artifactIds && referencesValid command.observationIds &&
    1 ≤ command.dimensions.length && command.dimensions.length ≤ 64 &&
    command.dimensions.all DimensionEvaluationInput.valid &&
    command.skillDimensionSubsets.length ≤ 32 &&
    command.skillDimensionSubsets.all SkillDimensionSubsetInput.valid &&
    decide (command.dimensions.map DimensionEvaluationInput.dimensionSlug).Nodup &&
    decide (command.skillDimensionSubsets.map SkillDimensionSubsetInput.skillSlug).Nodup &&
    (!command.scoredRecording || command.audioAvailable)

structure RecordEvaluationResponse where
  evaluationId : Nat
  activityId : Nat
  attemptId : Nat
  evidenceEventIds : List Nat
  snapshotIds : List Nat
  portfolioScoreId : Option Nat
  replayed : Bool

end TamForge.Evidence

/-!
## Qualification rules

`qualify_evidence` and the codes the ledger stores for it.  A formula's
qualifying modes, assistance codes and switches are fixed by its validator.
-/

namespace TamForge.Evidence

open Learning

/-- What `qualify_evidence` reads of a candidate. -/
structure EvidenceCandidate where
  rubricScored : Bool
  practiceMode : EvidenceMode
  assistance : AssistanceCode
  attemptKind : AttemptKind
  requiredPrecommitField : Option SelectorField
  selectedCompetency : Option String
  allowedSelectedCompetencies : List String
  selectorCommittedBeforeAttempt : Bool

inductive QualificationCode
  | missingRubricScore | nonqualifyingMode | nonqualifyingAssistance | attemptB
  | independentRequiresAttemptA | missingPrecommitSelector | invalidPrecommitSelector | qualifies
deriving DecidableEq

/-- `qualify_evidence`; a candidate qualifies when its code is `qualifies`. -/
def qualifyEvidence (candidate : EvidenceCandidate) : QualificationCode :=
  if candidate.rubricScored = false then .missingRubricScore
  else if candidate.practiceMode ∉ qualifyingModes then .nonqualifyingMode
  else if candidate.assistance ∉ qualifyingAssistanceCodes then .nonqualifyingAssistance
  else if candidate.attemptKind = .attemptB then .attemptB
  else if candidate.practiceMode = .independentPractice ∧ candidate.attemptKind ≠ .attemptA then
    .independentRequiresAttemptA
  else if candidate.requiredPrecommitField = none then .qualifies
  else
    match candidate.selectedCompetency with
    | none => .missingPrecommitSelector
    | some selected =>
      if candidate.selectorCommittedBeforeAttempt = false ∨
          selected ∉ candidate.allowedSelectedCompetencies then
        .invalidPrecommitSelector
      else
        .qualifies

/-- `QUALIFICATION_REASON_CODES` -/
inductive QualificationReason
  | qualifies | nonqualifyingMode | assistedDuringAttempt | attemptB | missingCommittedAttempt
  | mappingConditionNotMet | excludedByFormula
deriving DecidableEq

def qualificationReason : QualificationCode → QualificationReason
  | .qualifies => .qualifies
  | .nonqualifyingMode => .nonqualifyingMode
  | .nonqualifyingAssistance => .assistedDuringAttempt
  | .attemptB => .attemptB
  | .independentRequiresAttemptA => .excludedByFormula
  | .missingRubricScore | .missingPrecommitSelector | .invalidPrecommitSelector =>
    .excludedByFormula

inductive SummaryCode
  | independentScoredEvidence | preparationEvidence | assessmentEvidence | mockEvidence
  | realInterviewEvidence | excludedEvidence

def summaryCode (mode : EvidenceMode) (qualifying : Bool) : SummaryCode :=
  if qualifying = false then .excludedEvidence
  else
    match mode with
    | .independentPractice => .independentScoredEvidence
    | .timedAssessment => .assessmentEvidence
    | .mockInterview => .mockEvidence
    | .realInterview => .realInterviewEvidence
    | .exposureOnly | .guidedPractice | .pipelineOnly => .preparationEvidence

end TamForge.Evidence

/-!
## Preparing an evaluation

`EvidenceService.prepare_evaluation`: the pure step between the context that
the repository loads and the rows it appends.  A Python dictionary is the list
of its items in insertion order.
-/

namespace TamForge.Evidence

open Learning Models ProofSupport

/-- Everything recording evidence can raise.  The first four are the
`EvidenceError`s; callers do not expect the others. -/
inductive EvidenceFailure
  | notFound (message : String)
  | conflict (message : String)
  | invalidRequest (message : String)
  | storageUnavailable (message : String)
  | scoring (message : String)
  | estimate (message : String)
  | portfolio (message : String)
  | contract (message : String)
  | attribute (message : String)
  | assertion (message : String)
deriving DecidableEq

inductive ArtifactClass
  | originalAudio | transcript | other (name : String)
deriving DecidableEq

structure PersistedDimension where
  id : Nat
  slug : String
  weight : Rat
  maximum : Rat

structure PersistedSkill where
  id : Nat
  slug : String

structure EvaluationContext where
  configSeedVersionId : Nat
  configVersionKey : String
  formula : FormulaConfig
  exercise : ExerciseTypeConfig
  exerciseTypeVersionId : Nat
  rubric : RubricConfig
  rubricVersionId : Nat
  dimensions : List PersistedDimension
  skills : List PersistedSkill
  activityId : Nat
  attemptId : Nat
  attemptKind : AttemptKind
  attemptAssistanceMode : AssistanceMode
  attemptCommittedAt : Instant
  selfReviewSubmittedAt : Instant
  prompt : String
  selectedCompetency : Option String
  selectorField : Option SelectorField
  selectorCommittedInAttempt : Bool
  selfScore : Nat
  linkedArtifactClasses : List (Nat × ArtifactClass)
  writtenOutputAvailable : Bool

structure PreparedDimensionScore where
  dimensionId : Nat
  dimensionSlug : String
  availability : Availability
  score : Option Rat
  weight : Option Rat
  artifactIds : List Nat
  observationIds : List Nat

inductive DiscountCode
  | outlierCap

structure PreparedSkillEvent where
  skillId : Nat
  skillSlug : String
  dimensionSlugs : List String
  performance : PerformanceScoreResult
  impactSource : ImpactSource
  weight : EffectiveWeightResult
  qualifyingForLevel : Bool
  qualificationReason : QualificationReason
  summaryCode : SummaryCode
  discountCodes : List DiscountCode

structure PreparedEvaluation where
  configSeedVersionId : Nat
  activityId : Nat
  attemptId : Nat
  exerciseTypeVersionId : Nat
  rubricVersionId : Nat
  formula : FormulaConfig
  exercise : ExerciseTypeConfig
  rubric : RubricConfig
  evaluator : EvaluatorKind
  difficulty : DifficultyCode
  assistance : AssistanceCode
  evaluatedAt : Instant
  inputArtifactIds : List Nat
  inputObservationIds : List Nat
  dimensions : List PreparedDimensionScore
  skillEvents : List PreparedSkillEvent
  portfolioComponents : Option (List (String × Rat))

/-! ## Lineage -/

def AssistanceCode.duringAttempt : AssistanceCode → Bool
  | aiHintsDuringAttempt | aiCoCreated | aiGenerated => true
  | noAi | aiAfterCommittedAttempt => false

/-- `_validate_lineage`, in its order. -/
def lineageChecks (context : EvaluationContext) (command : EvidenceEvaluationCommand) :
    List (Bool × EvidenceFailure) :=
  let linked := context.linkedArtifactClasses
  let dimensionArtifacts := command.dimensions.flatMap
    DimensionEvaluationInput.evidenceArtifactIds
  let hasClass (ids : List Nat) (wanted : ArtifactClass) : Bool :=
    ids.any fun id => linked.contains (id, wanted)
  [ (command.activityId != context.activityId || command.attemptId != context.attemptId,
      .conflict "committed attempt lineage does not match"),
    (command.configVersionKey != context.configVersionKey,
      .conflict "configuration version does not match"),
    (command.formulaVersion != context.formula.version,
      .conflict "formula version does not match immutable configuration"),
    (command.exerciseType != context.exercise.slug ||
        command.mappingVersion != context.exercise.mappingVersion,
      .conflict "exercise mapping version does not match"),
    (command.rubricSlug != context.rubric.slug || command.rubricVersion != context.rubric.version,
      .conflict "rubric version does not match immutable configuration"),
    (command.practiceMode != context.exercise.evidenceMode,
      .conflict "practice mode does not match the exercise mapping"),
    (decide (command.evaluatedAt < max context.attemptCommittedAt context.selfReviewSubmittedAt),
      .conflict "evaluation predates committed learner evidence"),
    (!command.artifactIds.all fun id => (linked.map Prod.fst).contains id,
      .conflict "evaluation artifact is not linked to the attempt"),
    (!dimensionArtifacts.all fun id => command.artifactIds.contains id,
      .conflict "dimension artifact is absent from the input manifest"),
    (command.transcriptAvailable && !hasClass command.artifactIds .transcript,
      .conflict "transcript availability lacks immutable evidence"),
    (command.audioAvailable && !hasClass command.artifactIds .originalAudio,
      .conflict "audio availability lacks immutable evidence"),
    (command.scoredRecording && !hasClass dimensionArtifacts .originalAudio,
      .conflict "scored recording lacks dimension-level audio evidence"),
    (command.writtenEnglishAvailable && !context.writtenOutputAvailable,
      .conflict "written English availability lacks committed output"),
    (context.attemptAssistanceMode == .hintLadder &&
        command.assistance != .aiHintsDuringAttempt,
      .conflict "assistance does not match the committed attempt"),
    (context.attemptAssistanceMode != .hintLadder && command.assistance.duringAttempt,
      .conflict "assistance does not match the committed attempt"),
    (command.evaluator == .aiRubricReviewer && command.assistance == .noAi,
      .conflict "AI review must be recorded after commitment") ]

/-! ## Skills -/

def conditions (context : EvaluationContext) (command : EvidenceEvaluationCommand) :
    List ConditionCode :=
  (if command.transcriptAvailable ∨ command.writtenEnglishAvailable then
      [.spokenOrWrittenEnglish] else []) ++
    (if command.audioAvailable ∧ command.transcriptAvailable then
      [.explainedAloudInEnglish] else []) ++
    (if context.selectorCommittedInAttempt then [.reviewedDynamicImpact] else [])

/-- `dictionary[key] = value` -/
def setItem {β : Type} (items : List (String × β)) (key : String) (value : β) :
    List (String × β) :=
  if items.any (fun item => item.1 = key) then
    items.map fun item => if item.1 = key then (key, value) else item
  else
    items ++ [(key, value)]

/-- One skill of the loop in `_applicable_impacts`. -/
def addImpact (context : EvaluationContext) (conditionsMet : List ConditionCode)
    (impacts : List (String × SkillImpactResult)) (skillSlug : String) :
    Except EvidenceFailure (List (String × SkillImpactResult)) := do
  let resolved ← (resolveSkillImpact context.exercise skillSlug conditionsMet
    context.selectedCompetency context.selectorCommittedInAttempt).mapError
    fun error => .scoring error.message
  return if 0 < resolved.weight then setItem impacts skillSlug resolved else impacts

def selectorInvalid (context : EvaluationContext) : Bool :=
  let exercise := context.exercise
  exercise.requiredPrecommitField.isSome &&
    (!context.selectorCommittedInAttempt ||
      context.selectorField != exercise.requiredPrecommitField ||
      !context.selectedCompetency.any fun selected =>
        exercise.allowedSelectedCompetencies.contains selected)

def applicableImpacts (context : EvaluationContext) (conditionsMet : List ConditionCode) :
    Except EvidenceFailure (List (String × SkillImpactResult)) := do
  raiseFirst [(selectorInvalid context,
    .conflict "required precommit selector is missing or invalid")]
  let impacts ← (context.exercise.impacts.map SkillImpactConfig.skillSlug ++
    context.selectedCompetency.toList).foldlM (addImpact context conditionsMet) []
  raiseFirst [(!impacts.all fun impact =>
      (context.skills.map PersistedSkill.slug).contains impact.1,
    .conflict "mapped skill is absent from immutable configuration")]
  return impacts

/-! ## Rows -/

def prepareDimension (command : EvidenceEvaluationCommand) (persisted : PersistedDimension) :
    Except EvidenceFailure PreparedDimensionScore :=
  match command.dimensions.find? fun input => input.dimensionSlug = persisted.slug with
  | none => .error (.conflict "rubric dimensions do not match the immutable version")
  | some supplied =>
    if supplied.score.any fun score => persisted.maximum < score then
      .error (.invalidRequest
        ("dimension " ++ persisted.slug ++ " exceeds its configured maximum"))
    else
      .ok { dimensionId := persisted.id
            dimensionSlug := persisted.slug
            availability := supplied.availability
            score := supplied.score
            weight := if supplied.availability = .scored then some persisted.weight else none
            artifactIds := supplied.evidenceArtifactIds
            observationIds := supplied.evidenceObservationIds }

def scoreInput (context : EvaluationContext) (command : EvidenceEvaluationCommand)
    (slug : String) : Except EvidenceFailure DimensionScoreInput :=
  match command.dimensions.find? (fun input => input.dimensionSlug = slug),
      context.dimensions.find? (fun persisted => persisted.slug = slug) with
  | some input, some persisted =>
    match input.score with
    | none => .error (.invalidRequest
        "skill evidence may reference only scored rubric dimensions")
    | some score =>
      if input.availability ≠ .scored then
        .error (.invalidRequest "skill evidence may reference only scored rubric dimensions")
      else if 4 < score then
        .error (.invalidRequest "skill evidence dimensions must remain on the 0 to 4 scale")
      else
        .ok ⟨slug, score, persisted.weight⟩
  | _, _ => .error (.invalidRequest
      "skill evidence may reference only scored rubric dimensions")

/-- The candidate that `prepare_evaluation` qualifies for every skill. -/
def candidate (context : EvaluationContext) (command : EvidenceEvaluationCommand) :
    EvidenceCandidate where
  rubricScored := true
  practiceMode := command.practiceMode
  assistance := command.assistance
  attemptKind := context.attemptKind
  requiredPrecommitField := context.exercise.requiredPrecommitField
  selectedCompetency := context.selectedCompetency
  allowedSelectedCompetencies := context.exercise.allowedSelectedCompetencies
  selectorCommittedBeforeAttempt := context.selectorCommittedInAttempt

def prepareSkillEvent (context : EvaluationContext) (command : EvidenceEvaluationCommand)
    (impact : String × SkillImpactResult) : Except EvidenceFailure PreparedSkillEvent := do
  let some subset := command.skillDimensionSubsets.find? fun subset =>
      subset.skillSlug = impact.1
    | throw (.conflict "skill dimension subsets do not match the applicable mapped skills")
  let some skill := context.skills.find? fun skill => skill.slug = impact.1
    | throw (.conflict "mapped skill is absent from immutable configuration")
  let inputs ← subset.dimensionSlugs.mapM (scoreInput context command)
  let performance ← (calculatePerformanceScore inputs).mapError
    fun error => .scoring error.message
  let weight ← (calculateEffectiveWeight impact.2.weight command.practiceMode command.assistance
    command.evaluator command.difficulty context.formula).mapError
    fun error => .scoring error.message
  let code := qualifyEvidence (candidate context command)
  return { skillId := skill.id
           skillSlug := impact.1
           dimensionSlugs := subset.dimensionSlugs
           performance := performance
           impactSource := impact.2.source
           weight := weight
           qualifyingForLevel := decide (code = .qualifies)
           qualificationReason := Evidence.qualificationReason code
           summaryCode := Evidence.summaryCode command.practiceMode (decide (code = .qualifies))
           discountCodes := if weight.capped then [.outlierCap] else [] }

/-- `portfolio_judgment in composite_metric_weights`, outside Attempt B. -/
def scoresPortfolio (context : EvaluationContext) : Bool :=
  context.attemptKind != .attemptB &&
    context.exercise.compositeMetrics.any fun metric => metric.metricSlug = "portfolio_judgment"

def portfolioComponent (dimension : PreparedDimensionScore) :
    Except EvidenceFailure (String × Rat) :=
  match dimension.score with
  | none => .error (.invalidRequest "Portfolio Judgment requires every component score")
  | some score => .ok (dimension.dimensionSlug, score)

def portfolioComponents (context : EvaluationContext) (dimensions : List PreparedDimensionScore) :
    Except EvidenceFailure (Option (List (String × Rat))) :=
  if scoresPortfolio context then some <$> dimensions.mapM portfolioComponent else .ok none

def sameKeys (left right : List String) : Bool := decide (left ⊆ right ∧ right ⊆ left)

def expectedImpacts (context : EvaluationContext) (impacts : List (String × SkillImpactResult)) :
    List (String × SkillImpactResult) :=
  if context.attemptKind = .attemptB then [] else impacts

def subsetChecks (command : EvidenceEvaluationCommand)
    (expected : List (String × SkillImpactResult)) : List (Bool × EvidenceFailure) :=
  let subsets := command.skillDimensionSubsets
  [ (!sameKeys (subsets.map SkillDimensionSubsetInput.skillSlug) (expected.map Prod.fst),
      .conflict "skill dimension subsets do not match the applicable mapped skills"),
    (!decide (subsets.flatMap SkillDimensionSubsetInput.dimensionSlugs).Nodup,
      .invalidRequest "each mapped skill requires its own dimension subset") ]

def PreparedEvaluation.of (context : EvaluationContext) (command : EvidenceEvaluationCommand)
    (dimensions : List PreparedDimensionScore) (events : List PreparedSkillEvent)
    (components : Option (List (String × Rat))) : PreparedEvaluation where
  configSeedVersionId := context.configSeedVersionId
  activityId := context.activityId
  attemptId := context.attemptId
  exerciseTypeVersionId := context.exerciseTypeVersionId
  rubricVersionId := context.rubricVersionId
  formula := context.formula
  exercise := context.exercise
  rubric := context.rubric
  evaluator := command.evaluator
  difficulty := command.difficulty
  assistance := command.assistance
  evaluatedAt := command.evaluatedAt
  inputArtifactIds := command.artifactIds
  inputObservationIds := command.observationIds
  dimensions := dimensions
  skillEvents := events
  portfolioComponents := components

def prepareEvaluation (context : EvaluationContext) (command : EvidenceEvaluationCommand) :
    Except EvidenceFailure PreparedEvaluation := do
  raiseFirst (lineageChecks context command)
  raiseFirst [(!sameKeys (context.dimensions.map PersistedDimension.slug)
      (command.dimensions.map DimensionEvaluationInput.dimensionSlug),
    .conflict "rubric dimensions do not match the immutable version")]
  let dimensions ← context.dimensions.mapM (prepareDimension command)
  let impacts ← applicableImpacts context (conditions context command)
  let expected := expectedImpacts context impacts
  raiseFirst (subsetChecks command expected)
  let events ← expected.mapM (prepareSkillEvent context command)
  let components ← portfolioComponents context dimensions
  return .of context command dimensions events components

end TamForge.Evidence
