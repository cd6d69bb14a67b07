import TamForge.Evidence.Models

/-!
# The evidence repository

`record_atomic` over explicit tables: one transaction that loads the context of
a command, prepares the evaluation and appends its rows.  A raise rolls the
whole transaction back.
-/

namespace TamForge.Evidence

open Learning Models ProofSupport ProofSupport.Decimals

/-! ## Loading the context -/

def evaluable : ActivityState → Bool
  | .selfReviewComplete | .aiProcessing | .feedbackReady | .correctionDue | .demonstrated
  | .needsWork => true
  | .ready | .active | .paused | .outputCommitted | .incomplete | .superseded => false

def attemptRow? (lineage : Lineage) (ownerId activityId attemptId : Nat) :
    Option (ActivityInstance × Attempt × SelfReview) := do
  let activity ← lineage.activities.find? fun activity =>
    activity.ownerId = ownerId ∧ activity.id = activityId
  let attempt ← lineage.attempts.find? fun attempt =>
    attempt.ownerId = ownerId ∧ attempt.activityInstanceId = activityId ∧
      attempt.id = attemptId
  let selfReview ← lineage.selfReviews.find? fun review =>
    review.ownerId = ownerId ∧ review.activityInstanceId = activityId ∧
      review.attemptId = attemptId
  return (activity, attempt, selfReview)

/-- `task_context` and `output` of a committed attempt. -/
def attemptParts (text : Option JsonText) : Except EvidenceFailure (Json × Json) :=
  match text with
  | some (.document (.object fields)) =>
    match Json.item? fields "task_context", Json.item? fields "output" with
    | some context, some output => .ok (context, output)
    | _, _ => .error (.conflict "committed attempt lineage is invalid")
  | _ => .error (.conflict "committed attempt lineage is invalid")

def checkTaskContext (context : Json) (command : EvidenceEvaluationCommand) :
    Except EvidenceFailure Unit :=
  let holds (value : Json) (text : String) : Bool :=
    match value with
    | .string value => value == text
    | _ => false
  match context with
  | .object fields => raiseFirst [
      (!holds (Json.get fields "exercise_type") command.exerciseType ||
          !holds (Json.get fields "mapping_version") command.mappingVersion,
        .conflict "attempt exercise lineage does not match")]
  | _ => .error (.attribute "the task context has no attribute 'get'")

def addSelector (output : Json) (found : Option (String × SelectorField))
    (field : SelectorField) : Except EvidenceFailure (Option (String × SelectorField)) :=
  match output with
  | .object fields =>
    match Json.get fields field.text with
    | .null => .ok found
    | .string value =>
      if found.isSome then .error (.conflict "committed precommit selector is invalid")
      else .ok (some (value, field))
    | _ => .error (.conflict "committed precommit selector is invalid")
  | _ => .ok found

def committedSelector (output : Json) :
    Except EvidenceFailure (Option (String × SelectorField)) :=
  [SelectorField.domainCompetencySlug, .storyCompetencySlug].foldlM (addSelector output) none

def dimensionRows (seeds : Seeds) (ownerId configId rubricId : Nat) : List RubricDimension :=
  (seeds.dimensions.rows.filter fun dimension => dimension.ownerId = ownerId ∧
    dimension.configSeedVersionId = configId ∧
    dimension.rubricVersionId = rubricId).insertionSort fun a b =>
      a.ordinal < b.ordinal ∨ a.ordinal = b.ordinal ∧ a.id ≤ b.id

def skillRows (seeds : Seeds) (ownerId configId : Nat) : List Competency :=
  (seeds.competencies.rows.filter fun skill => skill.ownerId = ownerId ∧
    skill.configSeedVersionId = configId).insertionSort fun a b => a.id ≤ b.id

def artifactRows (ledger : Ledger) (ownerId activityId attemptId : Nat) :
    List (Nat × ArtifactClass) :=
  let linked := ledger.artifactLinks.filter fun link => link.ownerId = ownerId ∧
    link.activityInstanceId = activityId ∧ link.attemptId = attemptId
  ((ledger.artifacts.filter fun artifact => artifact.ownerId = ownerId ∧
    (linked.map ActivityArtifactLink.artifactId).contains artifact.id).insertionSort
      fun a b => a.id ≤ b.id).map fun artifact => (artifact.id, artifact.artifactClass)

structure CommandConfig where
  row : ConfigSeedVersion
  bundle : ConfigBundle
  exercise : ExerciseTypeConfig
  rubric : RubricConfig

def loadConfig (lineage : Lineage) (ownerId : Nat) (command : EvidenceEvaluationCommand) :
    Except EvidenceFailure CommandConfig := do
  let some row := lineage.configs.find? fun row =>
      row.ownerId = ownerId ∧ row.versionKey = command.configVersionKey
    | throw (.notFound "configuration version was not found")
  let invalid : EvidenceFailure := .conflict "persisted evidence configuration is invalid"
  let bundle ← row.payload.mapError fun _ => invalid
  let some exercise := bundle.exercise command.exerciseType | throw invalid
  let some rubric := bundle.rubric command.rubricSlug | throw invalid
  return ⟨row, bundle, exercise, rubric⟩

def loadContext (lineage : Lineage) (ledger : Ledger) (ownerId : Nat)
    (command : EvidenceEvaluationCommand) : Except EvidenceFailure EvaluationContext := do
  let config ← loadConfig lineage ownerId command
  let some (activity, attempt, selfReview) :=
      attemptRow? lineage ownerId command.activityId command.attemptId
    | throw (.notFound "committed attempt and self-review were not found")
  raiseFirst [(!evaluable activity.state,
    .conflict "attempt is not ready for external evaluation")]
  let (taskContext, output) ← attemptParts attempt.originalText
  checkTaskContext taskContext command
  let exercise? := ledger.seeds.exerciseTypes.rows.find? fun exercise =>
    exercise.ownerId = ownerId ∧ exercise.configSeedVersionId = config.row.id ∧
      exercise.exerciseType = command.exerciseType ∧
      exercise.mappingVersion = command.mappingVersion
  let rubric? := ledger.seeds.rubrics.rows.find? fun rubric =>
    rubric.ownerId = ownerId ∧ rubric.configSeedVersionId = config.row.id ∧
      rubric.rubricKey = command.rubricSlug ∧ rubric.versionKey = command.rubricVersion
  let some exercise := exercise? | throw (.notFound "exercise or rubric version was not found")
  let some rubric := rubric? | throw (.notFound "exercise or rubric version was not found")
  let dimensions := dimensionRows ledger.seeds ownerId config.row.id rubric.id
  let skills := skillRows ledger.seeds ownerId config.row.id
  let dimensionKeys := dimensions.map RubricDimension.dimensionKey
  let dimensionSlugs := config.rubric.dimensions.map RubricDimensionConfig.slug
  let skillKeys := skills.map Competency.slug
  let skillSlugs := config.bundle.skills.map SkillConfig.slug
  raiseFirst [
    (!decide (dimensionKeys ⊆ dimensionSlugs ∧ dimensionSlugs ⊆ dimensionKeys) ||
        !decide (skillKeys ⊆ skillSlugs ∧ skillSlugs ⊆ skillKeys),
      .conflict "persisted configuration rows do not match their payload"),
    (!command.observationIds.isEmpty, .invalidRequest
      "observation references are unavailable until analysis storage is installed")]
  let selector ← committedSelector output
  return {
    configSeedVersionId := config.row.id
    configVersionKey := config.row.versionKey
    formula := config.bundle.formula
    exercise := config.exercise
    exerciseTypeVersionId := exercise.id
    rubric := config.rubric
    rubricVersionId := rubric.id
    dimensions := dimensions.map fun row =>
      ⟨row.id, row.dimensionKey, row.weight, row.maxScore⟩
    skills := skills.map fun row => ⟨row.id, row.slug⟩
    activityId := activity.id
    attemptId := attempt.id
    attemptKind := attempt.attemptKind
    attemptAssistanceMode := attempt.assistanceMode
    attemptCommittedAt := attempt.committedAt
    selfReviewSubmittedAt := selfReview.submittedAt
    prompt := attempt.prompt
    selectedCompetency := selector.map Prod.fst
    selectorField := selector.map Prod.snd
    selectorCommittedInAttempt := selector.isSome
    selfScore := selfReview.selfScore
    linkedArtifactClasses := artifactRows ledger ownerId activity.id attempt.id
    writtenOutputAvailable := attempt.originalMarkdown.isSome || attempt.originalSql.isSome }

/-! ## Appending rows -/

/-- A row validator raised inside the flush. -/
def contracted {α : Type} (result : Except EvidenceContractError α) : Except EvidenceFailure α :=
  result.mapError fun error => .contract error.message

/-- A constraint of the database refuses the flush. -/
def stored (accepted : Bool) : Except EvidenceFailure Unit :=
  raiseFirst [(!accepted, .storageUnavailable "evidence storage is unavailable")]

def saveEvaluation (ledger : Ledger) (ownerId : Nat) (prepared : PreparedEvaluation)
    (now : Instant) : Except EvidenceFailure (RubricEvaluation × Ledger) := do
  let manifest : ReferenceManifest := ⟨prepared.inputArtifactIds, prepared.inputObservationIds⟩
  contracted (structuredPayload manifest.valid)
  let (row, evaluations) := ledger.evaluations.insert fun id =>
    { id := id
      ownerId := ownerId
      configSeedVersionId := prepared.configSeedVersionId
      activityInstanceId := prepared.activityId
      attemptId := some prepared.attemptId
      rubricVersionId := prepared.rubricVersionId
      evaluatorKind := prepared.evaluator
      inputManifest := manifest
      evaluatedAt := prepared.evaluatedAt
      createdAt := now }
  return (row, { ledger with evaluations := evaluations })

def newDimensionScore (ownerId : Nat) (evaluation : RubricEvaluation)
    (prepared : PreparedEvaluation) (now : Instant) (item : PreparedDimensionScore)
    (id : Nat) : RubricDimensionScore where
  id := id
  ownerId := ownerId
  configSeedVersionId := prepared.configSeedVersionId
  rubricEvaluationId := evaluation.id
  rubricVersionId := prepared.rubricVersionId
  rubricDimensionId := item.dimensionId
  availability := item.availability
  score := item.score
  weightUsed := item.weight
  evidenceManifest := ⟨item.artifactIds, item.observationIds⟩
  createdAt := now

/-- `_save_dimension_scores`.  Rows are validated before any of them is
inserted; a pending row has no identity yet. -/
def saveDimensionScores (ledger : Ledger) (ownerId : Nat) (evaluation : RubricEvaluation)
    (prepared : PreparedEvaluation) (now : Instant) :
    Except EvidenceFailure (List RubricDimensionScore × Ledger) := do
  let pending := prepared.dimensions.map (newDimensionScore ownerId evaluation prepared now)
  contracted (pending.forM fun row => validateRubricDimensionScore ledger (row 0))
  stored (pending.all (fun row => (row 0).storable) &&
    decide (prepared.dimensions.map PreparedDimensionScore.dimensionId).Nodup)
  let (rows, scores) := ledger.dimensionScores.insertAll pending
  return (rows, { ledger with dimensionScores := scores })

/-- One term of an event's manifest. -/
def scoreItem (prepared : PreparedEvaluation) (rows : List RubricDimensionScore)
    (slug : String) : Except EvidenceFailure ScoreItem :=
  match (prepared.dimensions.zip rows).find? fun pair => pair.1.dimensionSlug = slug with
  | none => .error (.assertion ("no score row for " ++ slug))
  | some (dimension, row) =>
    match dimension.score, dimension.weight with
    | some score, some weight => .ok ⟨row.id, score, weight⟩
    | _, _ => .error (.assertion ("no score for " ++ slug))

def newSkillEvent (ownerId : Nat) (evaluation : RubricEvaluation) (prepared : PreparedEvaluation)
    (now : Instant) (item : PreparedSkillEvent) (scores : List ScoreItem) (id : Nat) :
    SkillEvidenceEvent where
  id := id
  ownerId := ownerId
  configSeedVersionId := prepared.configSeedVersionId
  activityInstanceId := prepared.activityId
  attemptId := some prepared.attemptId
  rubricEvaluationId := evaluation.id
  rubricVersionId := prepared.rubricVersionId
  exerciseTypeVersionId := prepared.exerciseTypeVersionId
  competencyId := item.skillId
  formulaVersion := prepared.formula.version
  practiceMode := prepared.exercise.evidenceMode
  assistanceCode := prepared.assistance
  evaluatorKind := prepared.evaluator
  difficultyCode := prepared.difficulty
  rawDimensionScores := scores
  rawScoreNumerator := item.performance.weightedSum
  rawScoreDenominator := item.performance.weightSum
  performanceScore := item.performance.score
  exerciseSkillImpact := item.weight.factors.skillImpact
  practiceModeFactor := item.weight.factors.practiceMode
  aiIndependenceFactor := item.weight.factors.assistance
  evaluatorConfidenceFactor := item.weight.factors.evaluator
  difficultyFactor := item.weight.factors.difficulty
  effectiveWeight := item.weight.effectiveWeight
  qualifyingForLevel := item.qualifyingForLevel
  qualificationReasonCode := item.qualificationReason
  explanation := ⟨item.summaryCode, scores.map ScoreItem.dimensionScoreId, item.discountCodes⟩
  occurredAt := prepared.evaluatedAt
  createdAt := now

def pendingSkillEvent (ownerId : Nat) (evaluation : RubricEvaluation)
    (rows : List RubricDimensionScore) (prepared : PreparedEvaluation) (now : Instant)
    (item : PreparedSkillEvent) : Except EvidenceFailure (Nat → SkillEvidenceEvent) := do
  let scores ← item.dimensionSlugs.mapM (scoreItem prepared rows)
  return newSkillEvent ownerId evaluation prepared now item scores

def saveSkillEvents (lineage : Lineage) (ledger : Ledger) (ownerId : Nat)
    (evaluation : RubricEvaluation) (rows : List RubricDimensionScore)
    (prepared : PreparedEvaluation) (now : Instant) :
    Except EvidenceFailure (List SkillEvidenceEvent × Ledger) := do
  let pending ← prepared.skillEvents.mapM
    (pendingSkillEvent ownerId evaluation rows prepared now)
  contracted (pending.forM fun row => validateSkillEvidenceEvent lineage ledger (row 0))
  stored (pending.all (fun row => (row 0).storable) &&
    decide (prepared.skillEvents.map PreparedSkillEvent.skillId).Nodup)
  let (rows, events) := ledger.events.insertAll pending
  return (rows, { ledger with events := events })

/-! ## Snapshots -/

/-- One joined row of `_skill_evidence`. -/
def evidenceOf (lineage : Lineage) (ledger : Ledger) (ownerId : Nat)
    (event : SkillEvidenceEvent) : Option SkillEvidence := do
  let exercise ← ledger.seeds.exerciseTypes.rows.find? fun exercise =>
    exercise.ownerId = event.ownerId ∧
      exercise.configSeedVersionId = event.configSeedVersionId ∧
      exercise.id = event.exerciseTypeVersionId
  let attempt ← lineage.attempts.find? fun attempt =>
    attempt.ownerId = event.ownerId ∧ attempt.activityInstanceId = event.activityInstanceId ∧
      some attempt.id = event.attemptId
  let evaluation ← ledger.evaluations.rows.find? fun evaluation =>
    evaluation.ownerId = event.ownerId ∧
      evaluation.configSeedVersionId = event.configSeedVersionId ∧
      evaluation.id = event.rubricEvaluationId
  let inputs := evaluation.inputManifest.artifactIds
  return {
    eventId := event.id
    performanceScore := event.performanceScore
    effectiveWeight := event.effectiveWeight
    qualifyingForLevel := event.qualifyingForLevel
    exerciseType := exercise.exerciseType
    scenarioKey := attempt.prompt
    occurredAt := event.occurredAt
    practiceMode := event.practiceMode
    attemptKind := attempt.attemptKind
    reviewedArtifact := !inputs.isEmpty
    scoredRecording := ledger.artifacts.any fun artifact => artifact.ownerId == ownerId &&
      inputs.contains artifact.id && artifact.artifactClass == .originalAudio }

def skillEvidence (lineage : Lineage) (ledger : Ledger) (ownerId configId skillId : Nat)
    (formulaVersion : String) : Except EvidenceEstimateError (List SkillEvidence) :=
  let events := (ledger.events.rows.filter fun event => event.ownerId = ownerId ∧
    event.configSeedVersionId = configId ∧ event.competencyId = skillId ∧
    event.formulaVersion = formulaVersion).insertionSort fun a b =>
      a.occurredAt < b.occurredAt ∨ a.occurredAt = b.occurredAt ∧ a.id ≤ b.id
  (events.filterMap (evidenceOf lineage ledger ownerId)).mapM SkillEvidence.postInit

def snapshotManifestLimit : Nat := 24

/-- The manifest of a snapshot: the window, then as many of the excluded events
as fit, latest first. -/
def snapshotManifest (evidence : List SkillEvidence) (estimate : SkillEstimateResult) :
    List ManifestEntry :=
  let used := estimate.weightManifest.map fun item =>
    ManifestEntry.mk item.eventId item.usedWeight item.inclusion
  let excluded := estimate.excludedEventIds.filterMap fun id =>
    evidence.find? fun event => event.eventId = id
  let latest := (sortedBy SkillEvidence.key excluded).reverse
  -- a manifest over the limit leaves a negative count, which Python slices from the end
  let fitting := if used.length ≤ snapshotManifestLimit then
      latest.take (snapshotManifestLimit - used.length)
    else
      latest.take (latest.length - (used.length - snapshotManifestLimit))
  used ++ fitting.map fun event => ⟨event.eventId, 0,
    if event.qualifyingForLevel then .excludedOutsideWindow else .excludedNonqualifying⟩

def trendBasisCode (estimate : SkillEstimateResult) : BasisCode :=
  match estimate.trend.code with
  | .insufficientEvidence =>
    if estimate.contributingEventIds.isEmpty then .noQualifyingEvidence else .tooFewEvents
  | .improving => .improving
  | .stable => .stable
  | .declining => .declining
  | .firstScore => .firstScore

def snapshotRecency : RecencyCode → SnapshotRecency
  | .fresh => .fresh
  | .aging => .aging
  | .stale => .stale
  | .noEvidence => .noQualifyingEvidence

def nextSequence (ledger : Ledger) (ownerId skillId : Nat) (formulaVersion : String)
    (day : Int) : Nat :=
  (((ledger.snapshots.rows.filter fun snapshot => snapshot.ownerId = ownerId ∧
    snapshot.competencyId = skillId ∧ snapshot.formulaVersion = formulaVersion ∧
    snapshot.snapshotDate = day).map SkillSnapshot.snapshotSequence).max?.getD 0) + 1

def newSnapshot (skill : Competency) (prepared : PreparedEvaluation) (now : Instant)
    (evidence : List SkillEvidence) (estimate : SkillEstimateResult) (sequence : Nat)
    (id : Nat) : SkillSnapshot where
  id := id
  ownerId := skill.ownerId
  configSeedVersionId := prepared.configSeedVersionId
  competencyId := skill.id
  formulaVersion := prepared.formula.version
  snapshotDate := date prepared.evaluatedAt
  snapshotSequence := sequence
  estimatedLevel := estimate.estimate
  confidenceCode := estimate.confidence.code
  trendCode := estimate.trend.code
  recencyCode := snapshotRecency estimate.recency.code
  baselineTargetGap := quantize 3 (skill.baselineLevel - estimate.estimate)
  monthOneTargetGap := estimate.monthOneTargetGap
  finalTargetGap := estimate.finalTargetGap
  totalEffectiveWeight := estimate.totalEffectiveWeight
  qualifyingEventCount := estimate.qualifyingEventCount
  exerciseTypeCount := estimate.confidence.exerciseTypeCount
  lastStrongEvidenceDate := estimate.lastStrongEvidenceAt.map date
  contributingEventManifest := snapshotManifest evidence estimate
  confidenceBasis := ⟨estimate.confidence.basisCode, estimate.confidence.eventIds⟩
  trendBasis := ⟨trendBasisCode estimate, estimate.trend.eventIds⟩
  createdAt := now

def saveSnapshot (lineage : Lineage) (ownerId : Nat) (prepared : PreparedEvaluation)
    (now : Instant) (ledger : Ledger) (skillId : Nat) :
    Except EvidenceFailure (SkillSnapshot × Ledger) := do
  let some skill := ledger.seeds.competencies.rows.find? fun skill =>
      skill.ownerId = ownerId ∧ skill.configSeedVersionId = prepared.configSeedVersionId ∧
        skill.id = skillId
    | throw (.conflict "snapshot skill lineage was not found")
  let evidence ← (skillEvidence lineage ledger ownerId prepared.configSeedVersionId skillId
    prepared.formula.version).mapError fun error => .estimate error.message
  let estimate ← (estimateSkill skill.baselineLevel skill.monthOneTarget skill.finalTarget
    evidence prepared.formula prepared.evaluatedAt).mapError fun error => .estimate error.message
  let sequence := nextSequence ledger ownerId skillId prepared.formula.version
    (date prepared.evaluatedAt)
  let pending := newSnapshot skill prepared now evidence estimate sequence
  contracted (validateSkillSnapshot ledger (pending 0))
  stored (pending 0).storable
  let (row, snapshots) := ledger.snapshots.insert pending
  return (row, { ledger with snapshots := snapshots })

def saveSnapshots (lineage : Lineage) (ownerId : Nat) (prepared : PreparedEvaluation)
    (now : Instant) : Ledger → List Nat → Except EvidenceFailure (List Nat × Ledger)
  | ledger, [] => .ok ([], ledger)
  | ledger, skillId :: rest => do
      let (snapshot, ledger) ← saveSnapshot lineage ownerId prepared now ledger skillId
      let (ids, ledger) ← saveSnapshots lineage ownerId prepared now ledger rest
      return (snapshot.id :: ids, ledger)

/-! ## Portfolio scores -/

def portfolioHistory (ledger : Ledger) (ownerId configId : Nat) (formulaVersion : String) :
    List PortfolioJudgmentScore :=
  (ledger.portfolioScores.rows.filter fun score => score.ownerId = ownerId ∧
    score.configSeedVersionId = configId ∧
    score.formulaVersion = formulaVersion).insertionSort fun a b =>
      a.scoredAt < b.scoredAt ∨ a.scoredAt = b.scoredAt ∧ a.id ≤ b.id

def portfolioBasis (history : List PortfolioJudgmentScore) (trend : TrendResult) : Basis :=
  match trend.code with
  | .insufficientEvidence => ⟨.tooFewEvents, history.map PortfolioJudgmentScore.id⟩
  | .improving => ⟨.improving, trend.eventIds⟩
  | .stable => ⟨.stable, trend.eventIds⟩
  | .declining => ⟨.declining, trend.eventIds⟩
  | .firstScore => ⟨.firstScore, trend.eventIds⟩

/-- A component by its slug; `components[slug]` raises when the rubric has
none. -/
def component (components : List PortfolioComponentScore) (slug : String) :
    Except EvidenceFailure Rat :=
  match components.find? fun item => item.slug = slug with
  | none => .error (.assertion ("no component " ++ slug))
  | some item => .ok item.score

def savePortfolioScore (ledger : Ledger) (ownerId : Nat) (evaluation : RubricEvaluation)
    (prepared : PreparedEvaluation) (now : Instant) :
    Except EvidenceFailure (Option Nat × Ledger) := do
  let some scores := prepared.portfolioComponents | return (none, ledger)
  let history := portfolioHistory ledger ownerId prepared.configSeedVersionId
    prepared.formula.version
  let scored ← (scorePortfolioJudgment scores prepared.rubric prepared.formula.version
    (history.map fun item => ⟨item.id, item.totalScore, item.scoredAt⟩)).mapError
    fun error => .portfolio error.message
  let impact ← component scored.components "impact_risk_assessment"
  let prioritization ← component scored.components "explicit_prioritization"
  let ownership ← component scored.components "delegation_ownership"
  let communication ← component scored.components "communication_control"
  let protection ← component scored.components "proactive_work_protection"
  let reprioritization ← component scored.components "evidence_based_reprioritization"
  let clarity ← component scored.components "english_clarity"
  let pending (id : Nat) : PortfolioJudgmentScore :=
    { id := id
      ownerId := ownerId
      configSeedVersionId := prepared.configSeedVersionId
      activityInstanceId := prepared.activityId
      attemptId := prepared.attemptId
      rubricEvaluationId := evaluation.id
      rubricVersionId := prepared.rubricVersionId
      formulaVersion := prepared.formula.version
      impactRiskAssessment := impact
      explicitPrioritization := prioritization
      delegationOwnership := ownership
      communicationControl := communication
      proactiveWorkProtection := protection
      evidenceBasedReprioritization := reprioritization
      englishClarity := clarity
      totalScore := scored.totalScore
      trendBasis := portfolioBasis history scored.trend
      scoredAt := prepared.evaluatedAt
      createdAt := now }
  contracted (validatePortfolioJudgmentScore ledger (pending 0))
  stored (pending 0).storable
  let (row, portfolioScores) := ledger.portfolioScores.insert pending
  return (some row.id, { ledger with portfolioScores := portfolioScores })

/-! ## Recording -/

def Ledger.receipt? (ledger : Ledger) (ownerId : Nat) (key : String) : Option CommandReceipt :=
  ledger.receipts.find? fun receipt => receipt.ownerId = ownerId ∧ receipt.idempotencyKey = key

/-- Everything `record_atomic` appends once the evaluation is prepared. -/
def saveAll (lineage : Lineage) (ledger : Ledger) (now : Instant) (ownerId : Nat)
    (prepared : PreparedEvaluation) :
    Except EvidenceFailure (RecordEvaluationResponse × Ledger) := do
  let (evaluation, ledger) ← saveEvaluation ledger ownerId prepared now
  let (scores, ledger) ← saveDimensionScores ledger ownerId evaluation prepared now
  let (events, ledger) ← saveSkillEvents lineage ledger ownerId evaluation scores prepared now
  let skillIds := (events.map SkillEvidenceEvent.competencyId).dedup.insertionSort (· ≤ ·)
  let (snapshotIds, ledger) ← saveSnapshots lineage ownerId prepared now ledger skillIds
  let (portfolioId, ledger) ← savePortfolioScore ledger ownerId evaluation prepared now
  return ({
    evaluationId := evaluation.id
    activityId := prepared.activityId
    attemptId := prepared.attemptId
    evidenceEventIds := events.map SkillEvidenceEvent.id
    snapshotIds := snapshotIds
    portfolioScoreId := portfolioId
    replayed := false }, ledger)

def recordAtomic (lineage : Lineage) (ledger : Ledger) (now : Instant) (ownerId : Nat)
    (key : String) (command : EvidenceEvaluationCommand) :
    Except EvidenceFailure (RecordEvaluationResponse × Ledger) := do
  raiseFirst [(!lineage.owners.contains ownerId, .notFound "evidence owner was not found")]
  match ledger.receipt? ownerId key with
  | some receipt =>
    raiseFirst [(receipt.command != command,
      .conflict "Idempotency-Key was reused for another evaluation")]
    return (receipt.result, ledger)
  | none =>
    raiseFirst [(decide (now < command.evaluatedAt),
      .conflict "evaluation timestamp cannot be in the future")]
    let context ← loadContext lineage ledger ownerId command
    let prepared ← prepareEvaluation context command
    let (result, ledger) ← saveAll lineage ledger now ownerId prepared
    return (result, { ledger with
      receipts := ledger.receipts ++ [⟨ownerId, key, command, result, now⟩] })

def record (lineage : Lineage) (ledger : Ledger) (now : Instant) (ownerId : Nat)
    (command : EvidenceEvaluationCommand) (key : String) :
    Except EvidenceFailure (RecordEvaluationResponse × Ledger) := do
  raiseFirst [
    (decide (ownerId = 0), .invalidRequest "owner is invalid"),
    (!safeKey key, .invalidRequest "Idempotency-Key is invalid")]
  recordAtomic lineage ledger now ownerId key command

end TamForge.Evidence
