import TamForge.Evidence.Confidence
import TamForge.Evidence.Service
import TamForge.ProofSupport.Serial

/-!
# The evidence tables

The rows of `evidence/models.py` and the validators that run before each is
inserted.  Everything is append-only.  A JSON column is the structure of its
schema, so its validator checks only what the types leave open.
-/

namespace TamForge.Evidence

open Learning Models ProofSupport ProofSupport.Decimals

/-! ## Configuration rows -/

/-- A row of `config_seed_versions`, with its payload as `load_config_payload`
reads it: the linked bundle, or the message of the error. -/
structure ConfigSeedVersion where
  id : Nat
  ownerId : Nat
  versionKey : String
  payload : Except String ConfigBundle

structure Competency where
  id : Nat
  ownerId : Nat
  configSeedVersionId : Nat
  slug : String
  baselineLevel : Rat
  monthOneTarget : Rat
  finalTarget : Rat
deriving DecidableEq

structure ExerciseTypeVersion where
  id : Nat
  ownerId : Nat
  configSeedVersionId : Nat
  exerciseType : String
  mappingVersion : String
  evidenceMode : EvidenceMode
deriving DecidableEq

structure ExerciseSkillMapping where
  id : Nat
  ownerId : Nat
  configSeedVersionId : Nat
  exerciseTypeVersionId : Nat
  competencyId : Nat
  impact : Rat
  conditionCode : ConditionCode
deriving DecidableEq

structure RubricVersion where
  id : Nat
  ownerId : Nat
  configSeedVersionId : Nat
  rubricKey : String
  versionKey : String

structure RubricDimension where
  id : Nat
  ownerId : Nat
  configSeedVersionId : Nat
  rubricVersionId : Nat
  dimensionKey : String
  weight : Rat
  maxScore : Rat
  ordinal : Nat

structure Seeds where
  competencies : Serial Competency
  exerciseTypes : Serial ExerciseTypeVersion
  mappings : Serial ExerciseSkillMapping
  rubrics : Serial RubricVersion
  dimensions : Serial RubricDimension

/-! ## Evidence rows -/

/-- `artifact_ids` and `observation_ids` of a reference manifest. -/
structure ReferenceManifest where
  artifactIds : List Nat
  observationIds : List Nat

structure RubricEvaluation where
  id : Nat
  ownerId : Nat
  configSeedVersionId : Nat
  activityInstanceId : Nat
  attemptId : Option Nat
  rubricVersionId : Nat
  evaluatorKind : EvaluatorKind
  inputManifest : ReferenceManifest
  evaluatedAt : Instant
  createdAt : Instant

structure RubricDimensionScore where
  id : Nat
  ownerId : Nat
  configSeedVersionId : Nat
  rubricEvaluationId : Nat
  rubricVersionId : Nat
  rubricDimensionId : Nat
  availability : Availability
  score : Option Rat
  weightUsed : Option Rat
  evidenceManifest : ReferenceManifest
  createdAt : Instant

/-- One term of `raw_dimension_scores`. -/
structure ScoreItem where
  dimensionScoreId : Nat
  score : Rat
  weight : Rat

structure Explanation where
  summaryCode : SummaryCode
  dimensionScoreIds : List Nat
  discountCodes : List DiscountCode

structure SkillEvidenceEvent where
  id : Nat
  ownerId : Nat
  configSeedVersionId : Nat
  activityInstanceId : Nat
  attemptId : Option Nat
  rubricEvaluationId : Nat
  rubricVersionId : Nat
  exerciseTypeVersionId : Nat
  competencyId : Nat
  formulaVersion : String
  practiceMode : EvidenceMode
  assistanceCode : AssistanceCode
  evaluatorKind : EvaluatorKind
  difficultyCode : DifficultyCode
  rawDimensionScores : List ScoreItem
  rawScoreNumerator : Rat
  rawScoreDenominator : Rat
  performanceScore : Rat
  exerciseSkillImpact : Rat
  practiceModeFactor : Rat
  aiIndependenceFactor : Rat
  evaluatorConfidenceFactor : Rat
  difficultyFactor : Rat
  effectiveWeight : Rat
  qualifyingForLevel : Bool
  qualificationReasonCode : QualificationReason
  explanation : Explanation
  occurredAt : Instant
  createdAt : Instant

/-- One entry of `contributing_event_manifest`. -/
structure ManifestEntry where
  eventId : Nat
  effectiveWeight : Rat
  inclusionCode : InclusionCode

structure Basis where
  basisCode : BasisCode
  eventIds : List Nat

inductive SnapshotRecency
  | fresh | aging | stale | noQualifyingEvidence

structure SkillSnapshot where
  id : Nat
  ownerId : Nat
  configSeedVersionId : Nat
  competencyId : Nat
  formulaVersion : String
  snapshotDate : Int
  snapshotSequence : Nat
  estimatedLevel : Rat
  confidenceCode : ConfidenceCode
  trendCode : TrendCode
  recencyCode : SnapshotRecency
  baselineTargetGap : Rat
  monthOneTargetGap : Rat
  finalTargetGap : Rat
  totalEffectiveWeight : Rat
  qualifyingEventCount : Nat
  exerciseTypeCount : Nat
  lastStrongEvidenceDate : Option Int
  contributingEventManifest : List ManifestEntry
  confidenceBasis : Basis
  trendBasis : Basis
  createdAt : Instant

structure PortfolioJudgmentScore where
  id : Nat
  ownerId : Nat
  configSeedVersionId : Nat
  activityInstanceId : Nat
  attemptId : Nat
  rubricEvaluationId : Nat
  rubricVersionId : Nat
  formulaVersion : String
  impactRiskAssessment : Rat
  explicitPrioritization : Rat
  delegationOwnership : Rat
  communicationControl : Rat
  proactiveWorkProtection : Rat
  evidenceBasedReprioritization : Rat
  englishClarity : Rat
  totalScore : Rat
  trendBasis : Basis
  scoredAt : Instant
  createdAt : Instant

structure Artifact where
  id : Nat
  ownerId : Nat
  artifactClass : ArtifactClass

structure ActivityArtifactLink where
  ownerId : Nat
  activityInstanceId : Nat
  attemptId : Nat
  artifactId : Nat

/-- A row of `command_receipts` in the scope `evidence.record`.  The command
stands for the hash of its canonical JSON. -/
structure CommandReceipt where
  ownerId : Nat
  idempotencyKey : String
  command : EvidenceEvaluationCommand
  result : RecordEvaluationResponse
  createdAt : Instant

structure Ledger where
  seeds : Seeds
  artifacts : List Artifact
  artifactLinks : List ActivityArtifactLink
  evaluations : Serial RubricEvaluation
  dimensionScores : Serial RubricDimensionScore
  events : Serial SkillEvidenceEvent
  snapshots : Serial SkillSnapshot
  portfolioScores : Serial PortfolioJudgmentScore
  receipts : List CommandReceipt

/-- The tables of other components that the ledger reads. -/
structure Lineage where
  owners : List Nat
  configs : List ConfigSeedVersion
  definitions : List TaskDefinition
  activities : List ActivityInstance
  attempts : List Attempt
  selfReviews : List SelfReview

/-! ## Validators -/

/-- `EvidenceContractError`, with its message. -/
structure EvidenceContractError where
  message : String
deriving DecidableEq

/-- `_validate_structured_payloads` -/
def structuredPayload (valid : Bool) : Except EvidenceContractError Unit :=
  raiseFirst [(!valid, ⟨"structured evidence payload is invalid or too large"⟩)]

/-- `_validate_reference_manifest` -/
def ReferenceManifest.valid (manifest : ReferenceManifest) : Bool :=
  [manifest.artifactIds, manifest.observationIds].all fun ids =>
    ids.length ≤ 64 && ids.all (0 < ·)

/-- `_validate_score_manifest` -/
def scoreManifestValid (scores : List ScoreItem) : Bool :=
  1 ≤ scores.length && scores.length ≤ 64 && scores.all fun item =>
    0 < item.dimensionScoreId && decide (0 ≤ item.score ∧ item.score ≤ 20) &&
      decide (0 < item.weight ∧ item.weight ≤ 1)

/-- `_validate_explanation` -/
def Explanation.valid (explanation : Explanation) : Bool :=
  explanation.dimensionScoreIds.length ≤ 64 && explanation.dimensionScoreIds.all (0 < ·) &&
    explanation.discountCodes.length ≤ 16

/-- `_validate_snapshot_manifest` -/
def snapshotManifestValid (entries : List ManifestEntry) : Bool :=
  entries.length ≤ 24 && decide (entries.map ManifestEntry.eventId).Nodup &&
    entries.all fun entry => 0 < entry.eventId &&
      decide (0 ≤ entry.effectiveWeight ∧ entry.effectiveWeight ≤ 3 / 2)

/-- `_validate_basis` -/
def Basis.valid (basis : Basis) : Bool :=
  basis.eventIds.length ≤ 24 && basis.eventIds.all (0 < ·) && decide basis.eventIds.Nodup

def validateRubricDimensionScore (ledger : Ledger) (target : RubricDimensionScore) :
    Except EvidenceContractError Unit := do
  structuredPayload target.evidenceManifest.valid
  if target.availability = .scored then
    raiseFirst [(target.score.isNone || target.weightUsed.isNone,
      ⟨"scored dimension requires score and weight"⟩)]
  else
    raiseFirst [(target.score.isSome || target.weightUsed.isSome,
      ⟨"unavailable dimension cannot carry a score"⟩)]
  let some dimension := ledger.seeds.dimensions.rows.find? fun dimension =>
      dimension.ownerId = target.ownerId ∧
        dimension.configSeedVersionId = target.configSeedVersionId ∧
        dimension.rubricVersionId = target.rubricVersionId ∧
        dimension.id = target.rubricDimensionId
    | throw ⟨"rubric dimension provenance is invalid"⟩
  raiseFirst [(target.score.any fun score => decide (dimension.maxScore < score),
    ⟨"score exceeds rubric dimension maximum"⟩)]

/-! ### Skill events -/

/-- The joined row of the exercise, its mapping, the activity and its task. -/
structure EventLineage where
  exercise : ExerciseTypeVersion
  mapping : ExerciseSkillMapping
  task : TaskDefinition

def eventLineage? (lineage : Lineage) (seeds : Seeds) (target : SkillEvidenceEvent) :
    Option EventLineage := do
  let exercise ← seeds.exerciseTypes.rows.find? fun exercise =>
    exercise.ownerId = target.ownerId ∧
      exercise.configSeedVersionId = target.configSeedVersionId ∧
      exercise.id = target.exerciseTypeVersionId
  let mapping ← seeds.mappings.rows.find? fun mapping =>
    mapping.ownerId = target.ownerId ∧
      mapping.configSeedVersionId = target.configSeedVersionId ∧
      mapping.exerciseTypeVersionId = exercise.id ∧ mapping.competencyId = target.competencyId
  let activity ← lineage.activities.find? fun activity =>
    activity.ownerId = target.ownerId ∧ activity.id = target.activityInstanceId
  let task ← lineage.definitions.find? fun task =>
    task.ownerId = activity.ownerId ∧ task.roadmapVersionId = activity.roadmapVersionId ∧
      task.id = activity.taskDefinitionId
  return ⟨exercise, mapping, task⟩

def attemptKind? (lineage : Lineage) (target : SkillEvidenceEvent) : Option AttemptKind := do
  let attemptId ← target.attemptId
  let attempt ← lineage.attempts.find? fun attempt =>
    attempt.ownerId = target.ownerId ∧ attempt.activityInstanceId = target.activityInstanceId ∧
      attempt.id = attemptId
  return attempt.attemptKind

def storedEvaluator? (ledger : Ledger) (target : SkillEvidenceEvent) : Option EvaluatorKind :=
  (ledger.evaluations.rows.find? fun evaluation =>
    evaluation.ownerId = target.ownerId ∧
      evaluation.configSeedVersionId = target.configSeedVersionId ∧
      evaluation.activityInstanceId = target.activityInstanceId ∧
      evaluation.attemptId = target.attemptId ∧
      evaluation.rubricVersionId = target.rubricVersionId ∧
      evaluation.id = target.rubricEvaluationId).map RubricEvaluation.evaluatorKind

def storedDimension? (ledger : Ledger) (target : SkillEvidenceEvent) (item : ScoreItem) :
    Option RubricDimensionScore :=
  ledger.dimensionScores.rows.find? fun score =>
    score.ownerId = target.ownerId ∧ score.configSeedVersionId = target.configSeedVersionId ∧
      score.rubricVersionId = target.rubricVersionId ∧
      score.rubricEvaluationId = target.rubricEvaluationId ∧ score.id = item.dimensionScoreId ∧
      score.availability = .scored

def storedScoreMatches (ledger : Ledger) (target : SkillEvidenceEvent) (item : ScoreItem) :
    Bool :=
  (storedDimension? ledger target item).any fun score =>
    score.score == some item.score && score.weightUsed == some item.weight

def ScoreItem.numerator (items : List ScoreItem) : Rat :=
  (items.map fun item => item.score * item.weight).sum

def ScoreItem.denominator (items : List ScoreItem) : Rat :=
  (items.map ScoreItem.weight).sum

/-- The product of the five factors, rounded to the column. -/
def SkillEvidenceEvent.expectedWeight (target : SkillEvidenceEvent) : Rat :=
  quantize 6 (target.exerciseSkillImpact * target.practiceModeFactor *
    target.aiIndependenceFactor * target.evaluatorConfidenceFactor * target.difficultyFactor)

def expectedReason (target : SkillEvidenceEvent) (kind : AttemptKind)
    (condition : ConditionCode) : QualificationReason :=
  if kind = .attemptB then .attemptB
  else if target.practiceMode ∉ qualifyingModes then .nonqualifyingMode
  else if target.assistanceCode ∉ qualifyingAssistanceCodes then .assistedDuringAttempt
  else if target.qualifyingForLevel then .qualifies
  else if target.qualificationReasonCode = .mappingConditionNotMet ∧ condition ≠ .always then
    .mappingConditionNotMet
  else .excludedByFormula

def validateQualificationReason (target : SkillEvidenceEvent) (kind : Option AttemptKind)
    (condition : ConditionCode) : Except EvidenceContractError Unit := do
  let expected ← match target.attemptId, kind with
    | none, _ => pure QualificationReason.missingCommittedAttempt
    | some _, none => throw ⟨"skill evidence attempt provenance is invalid"⟩
    | some _, some kind => pure (expectedReason target kind condition)
  raiseFirst [
    (target.qualificationReasonCode != expected ||
        target.qualifyingForLevel != (expected == .qualifies),
      ⟨"qualification reason does not match stored evidence"⟩),
    (expected == .qualifies && target.practiceMode == .independentPractice &&
        kind != some .attemptA,
      ⟨"qualifying independent practice requires committed Attempt A"⟩)]

/-- The checks of `validate_skill_evidence_event` on the row alone. -/
def reproducibleChecks (target : SkillEvidenceEvent) : List (Bool × EvidenceContractError) :=
  let items := target.rawDimensionScores
  [ (!decide (items.map ScoreItem.dimensionScoreId).Nodup,
      ⟨"raw score terms must reference unique dimensions"⟩),
    (target.rawScoreDenominator == 0, ⟨"numeric evidence factors are invalid"⟩),
    (target.rawScoreNumerator != ScoreItem.numerator items ||
        target.rawScoreDenominator != ScoreItem.denominator items,
      ⟨"raw score terms are not reproducible"⟩),
    (target.effectiveWeight != target.expectedWeight,
      ⟨"effective evidence weight is not reproducible"⟩),
    (target.performanceScore !=
        quantize 3 (target.rawScoreNumerator / target.rawScoreDenominator),
      ⟨"performance score is not reproducible"⟩) ]

def provenanceChecks (ledger : Ledger) (target : SkillEvidenceEvent) (stored : EventLineage) :
    List (Bool × EvidenceContractError) :=
  [ (target.practiceMode != stored.exercise.evidenceMode,
      ⟨"practice mode must match configured exercise mode"⟩),
    (some stored.exercise.exerciseType != stored.task.exerciseType ||
        some stored.exercise.mappingVersion != stored.task.mappingVersion,
      ⟨"exercise version must match activity task mapping"⟩),
    (target.exerciseSkillImpact != stored.mapping.impact,
      ⟨"evidence impact must match configured skill mapping"⟩),
    (storedEvaluator? ledger target != some target.evaluatorKind,
      ⟨"evidence evaluator must match stored evaluation"⟩),
    (!target.rawDimensionScores.all (storedScoreMatches ledger target),
      ⟨"raw scores must match immutable dimensions"⟩) ]

def validateSkillEvidenceEvent (lineage : Lineage) (ledger : Ledger)
    (target : SkillEvidenceEvent) : Except EvidenceContractError Unit := do
  structuredPayload (scoreManifestValid target.rawDimensionScores && target.explanation.valid)
  raiseFirst (reproducibleChecks target)
  let some stored := eventLineage? lineage ledger.seeds target
    | throw ⟨"skill evidence exercise provenance is invalid"⟩
  raiseFirst (provenanceChecks ledger target stored)
  validateQualificationReason target (attemptKind? lineage target) stored.mapping.conditionCode

/-! ### Snapshots -/

/-- `confidence_codes` -/
def ConfidenceCode.allows : ConfidenceCode → BasisCode → Bool
  | .low, .lowWeight | .low, .noQualifyingEvidence => true
  | .medium, .mediumWeightDiversity => true
  | .high, .highWeightDiversityRecency => true
  | _, _ => false

/-- `trend_codes` -/
def TrendCode.allows : TrendCode → BasisCode → Bool
  | .insufficientEvidence, .tooFewEvents | .insufficientEvidence, .noQualifyingEvidence => true
  | .improving, .improving => true
  | .stable, .stable => true
  | .declining, .declining => true
  | _, _ => false

/-- An event that counts in a recomputed estimate. -/
structure Contribution where
  weight : Rat
  performanceScore : Rat
  exerciseTypeVersionId : Nat

/-- One manifest entry of the recomputation: what it contributes, or the check
it fails. -/
def contribution (ledger : Ledger) (target : SkillSnapshot) (entry : ManifestEntry) :
    Except EvidenceContractError (Option Contribution) := do
  let some stored := ledger.events.rows.find? fun event =>
      event.ownerId = target.ownerId ∧
        event.configSeedVersionId = target.configSeedVersionId ∧
        event.competencyId = target.competencyId ∧
        event.formulaVersion = target.formulaVersion ∧ event.id = entry.eventId
    | throw ⟨"snapshot event provenance is invalid"⟩
  let weight := entry.effectiveWeight
  let counted : Contribution := ⟨weight, stored.performanceScore, stored.exerciseTypeVersionId⟩
  match entry.inclusionCode with
  | .included =>
    raiseFirst [(!stored.qualifyingForLevel || weight != stored.effectiveWeight,
      ⟨"included snapshot event weight is invalid"⟩)]
    return some counted
  | .discountedSameDay =>
    raiseFirst [(!stored.qualifyingForLevel || decide (weight ≤ 0) ||
        decide (stored.effectiveWeight < weight),
      ⟨"discounted snapshot event weight is invalid"⟩)]
    return some counted
  | .excludedNonqualifying | .excludedOutsideWindow =>
    raiseFirst [(weight != 0, ⟨"excluded snapshot event weight must be zero"⟩)]
    return none

def reproduces (target : SkillSnapshot) (skill : Competency)
    (contributions : List Contribution) : Bool :=
  let weight := (contributions.map Contribution.weight).sum
  let weighted := (contributions.map fun item => item.performanceScore * item.weight).sum
  let estimate := quantize 3 ((skill.baselineLevel * 2 + weighted) / (2 + weight))
  target.totalEffectiveWeight == quantize 6 weight &&
    target.qualifyingEventCount == contributions.length &&
    target.exerciseTypeCount ==
      (contributions.map Contribution.exerciseTypeVersionId).dedup.length &&
    target.estimatedLevel == estimate &&
    target.baselineTargetGap == quantize 3 (skill.baselineLevel - estimate) &&
    target.monthOneTargetGap == quantize 3 (skill.monthOneTarget - estimate) &&
    target.finalTargetGap == quantize 3 (skill.finalTarget - estimate)

def validateSkillSnapshot (ledger : Ledger) (target : SkillSnapshot) :
    Except EvidenceContractError Unit := do
  let entries := target.contributingEventManifest
  structuredPayload (snapshotManifestValid entries && target.confidenceBasis.valid &&
    target.trendBasis.valid)
  let listed := entries.map ManifestEntry.eventId
  raiseFirst [
    (!target.confidenceBasis.eventIds.all listed.contains ||
        !target.trendBasis.eventIds.all listed.contains,
      ⟨"snapshot basis event ids must be contributing events"⟩),
    (!target.confidenceCode.allows target.confidenceBasis.basisCode,
      ⟨"confidence basis code does not match snapshot confidence"⟩),
    (!target.trendCode.allows target.trendBasis.basisCode,
      ⟨"trend basis code does not match snapshot trend"⟩)]
  let some skill := ledger.seeds.competencies.rows.find? fun skill =>
      skill.ownerId = target.ownerId ∧
        skill.configSeedVersionId = target.configSeedVersionId ∧
        skill.id = target.competencyId
    | throw ⟨"snapshot competency provenance is invalid"⟩
  let contributions ← entries.mapM (contribution ledger target)
  raiseFirst [(!reproduces target skill (contributions.filterMap id),
    ⟨"snapshot estimate is not reproducible"⟩)]

/-! ### Portfolio scores -/

def validatePortfolioJudgmentScore (ledger : Ledger) (target : PortfolioJudgmentScore) :
    Except EvidenceContractError Unit := do
  let basis := target.trendBasis
  structuredPayload basis.valid
  if basis.basisCode = .firstScore then
    raiseFirst [(!basis.eventIds.isEmpty, ⟨"first portfolio score cannot have trend history"⟩)]
  else
    let history := ledger.portfolioScores.rows.filter fun score =>
      basis.eventIds.contains score.id && score.ownerId == target.ownerId &&
        score.configSeedVersionId == target.configSeedVersionId &&
        score.formulaVersion == target.formulaVersion && decide (score.scoredAt ≤ target.scoredAt)
    raiseFirst [
      (!([.tooFewEvents, .improving, .stable, .declining] : List BasisCode).contains
            basis.basisCode ||
          basis.eventIds.isEmpty,
        ⟨"portfolio trend requires prior score history"⟩),
      (history.length != basis.eventIds.length,
        ⟨"portfolio trend history provenance is invalid"⟩)]

/-! ## Column constraints -/

/-- `factor_ranges`, `raw_score_terms_coherent` and `effective_weight_reproducible`
of `skill_evidence_events`, on the values as their columns round them. -/
def SkillEvidenceEvent.storable (row : SkillEvidenceEvent) : Bool :=
  let unit (value : Rat) : Bool := decide (0 ≤ value ∧ value ≤ 1)
  decide (0 ≤ quantize 6 row.rawScoreNumerator) &&
    decide (0 < quantize 6 row.rawScoreDenominator) && decide (row.performanceScore ≤ 4) &&
    row.performanceScore == quantize 3
      (quantize 6 row.rawScoreNumerator / quantize 6 row.rawScoreDenominator) &&
    decide (0 < row.exerciseSkillImpact ∧ row.exerciseSkillImpact ≤ 1) &&
    unit row.practiceModeFactor && unit row.aiIndependenceFactor &&
    unit row.evaluatorConfidenceFactor &&
    decide (0 < row.difficultyFactor ∧ row.difficultyFactor ≤ 3 / 2) &&
    decide (0 ≤ row.effectiveWeight ∧ row.effectiveWeight ≤ 3 / 2) &&
    row.effectiveWeight == row.expectedWeight

/-- `availability_score_coherent` of `rubric_dimension_scores`. -/
def RubricDimensionScore.storable (row : RubricDimensionScore) : Bool :=
  if row.availability = .scored then
    row.score.any (fun score => decide (0 ≤ score ∧ score ≤ 20)) &&
      row.weightUsed.any fun weight => decide (0 < weight ∧ weight ≤ 1)
  else
    row.score.isNone && row.weightUsed.isNone

/-- `estimated_level_bounded` and `target_gaps_bounded` of `skill_snapshots`. -/
def SkillSnapshot.storable (row : SkillSnapshot) : Bool :=
  decide (0 ≤ row.estimatedLevel ∧ row.estimatedLevel ≤ 4) &&
    [row.baselineTargetGap, row.monthOneTargetGap, row.finalTargetGap].all fun gap =>
      decide (-4 ≤ gap ∧ gap ≤ 4)

/-- `components_bounded` and `total_reproducible` of `portfolio_judgment_scores`. -/
def PortfolioJudgmentScore.storable (row : PortfolioJudgmentScore) : Bool :=
  let components := [(row.impactRiskAssessment, (4 : Rat)), (row.explicitPrioritization, 3),
    (row.delegationOwnership, 3), (row.communicationControl, 3),
    (row.proactiveWorkProtection, 2), (row.evidenceBasedReprioritization, 3),
    (row.englishClarity, 2)]
  components.all (fun component => decide (0 ≤ component.1 ∧ component.1 ≤ component.2)) &&
    row.totalScore == (components.map Prod.fst).sum

end TamForge.Evidence
