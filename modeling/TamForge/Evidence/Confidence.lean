import Mathlib.Data.List.Sort
import Mathlib.Data.String.Basic
import TamForge.Evidence.Scoring
import TamForge.Learning.Models

/-!
# Trend

`evidence/trend.py`.  Events are ordered by when they occurred and then by the
text of their identity, as Python compares strings.
-/

namespace TamForge.Evidence

open Models ProofSupport.Decimals

structure TrendEvent where
  eventId : Nat
  performanceScore : Rat
  effectiveWeight : Rat
  occurredAt : Instant

/-- `key(a) <= key(b)` for the key `(occurred_at, str(event_id))`. -/
def keyLe (a b : Instant × Nat) : Prop :=
  a.1 < b.1 ∨ a.1 = b.1 ∧ toString a.2 ≤ toString b.2

instance (a b : Instant × Nat) : Decidable (keyLe a b) :=
  inferInstanceAs (Decidable (_ ∨ _))

/-- `sorted(events, key=...)` -/
def sortedBy {ε : Type} (key : ε → Instant × Nat) (events : List ε) : List ε :=
  events.insertionSort fun a b => keyLe (key a) (key b)

/-- `events[-count:]` for a positive count. -/
def lastOf {ε : Type} (count : Nat) (events : List ε) : List ε :=
  events.drop (events.length - count)

inductive TrendCode
  | insufficientEvidence | improving | stable | declining | firstScore

structure TrendResult where
  code : TrendCode
  delta : Option Rat := none
  precedingAverage : Option Rat := none
  recentAverage : Option Rat := none
  eventIds : List Nat

def weightedAverage (events : List TrendEvent) : Option Rat :=
  let total := (events.map TrendEvent.effectiveWeight).sum
  if total ≤ 0 then none
  else some ((events.map fun event => event.performanceScore * event.effectiveWeight).sum / total)

def calculateTrend (events : List TrendEvent) (rules : TrendRules) : TrendResult :=
  let required := rules.recentEventCount + rules.precedingEventCount
  let ordered := sortedBy (fun event => (event.occurredAt, event.eventId)) events
  if ordered.length < required then
    { code := .insufficientEvidence, eventIds := [] }
  else
    let selected := lastOf required ordered
    let eventIds := selected.map TrendEvent.eventId
    match weightedAverage (selected.take rules.precedingEventCount),
        weightedAverage (selected.drop rules.precedingEventCount) with
    | some preceding, some recent =>
      let delta := quantize 3 (recent - preceding)
      { code :=
          if rules.minimumDelta ≤ delta then .improving
          else if delta ≤ -rules.minimumDelta then .declining
          else .stable
        delta := some delta
        precedingAverage := some (quantize 3 preceding)
        recentAverage := some (quantize 3 recent)
        eventIds := eventIds }
    | _, _ => { code := .insufficientEvidence, eventIds := eventIds }

end TamForge.Evidence

/-!
## Skill estimates

`evidence/confidence.py`: the estimate of one skill from its events, with the
confidence, trend and recency it reports.
-/

namespace TamForge.Evidence

open Learning Models ProofSupport ProofSupport.Decimals

/-- `EvidenceEstimateError`, with its message. -/
structure EvidenceEstimateError where
  message : String
deriving DecidableEq

/-- `scenarioKey` is the prompt of the attempt, in the place of its SHA-256
digest. -/
structure SkillEvidence where
  eventId : Nat
  performanceScore : Rat
  effectiveWeight : Rat
  qualifyingForLevel : Bool
  exerciseType : String
  scenarioKey : String
  occurredAt : Instant
  practiceMode : EvidenceMode
  attemptKind : AttemptKind
  reviewedArtifact : Bool
  scoredRecording : Bool
deriving DecidableEq

namespace SkillEvidence

/-- `__post_init__`; a digest is never blank. -/
def postInit (event : SkillEvidence) : Except EvidenceEstimateError SkillEvidence := do
  raiseFirst [
    (!decide (0 ≤ event.performanceScore ∧ event.performanceScore ≤ 4),
      ⟨"performance_score must be a Decimal from 0 to 4"⟩),
    (decide (event.effectiveWeight < 0), ⟨"effective_weight must be a nonnegative Decimal"⟩),
    (!nonblank event.exerciseType, ⟨"exercise_type and scenario_key must not be blank"⟩)]
  return event

def key (event : SkillEvidence) : Instant × Nat := (event.occurredAt, event.eventId)

def trendEvent (event : SkillEvidence) : TrendEvent :=
  ⟨event.eventId, event.performanceScore, event.effectiveWeight, event.occurredAt⟩

end SkillEvidence

/-- `occurred_at.date()` in UTC, as days since the epoch. -/
def date (instant : Instant) : Int := instant / 86400000000

/-- The qualifying events up to `asOf`. -/
def qualifyingEvents (events : List SkillEvidence) (asOf : Instant) : List SkillEvidence :=
  events.filter fun event => event.qualifyingForLevel = true ∧ event.occurredAt ≤ asOf

def totalWeight (events : List SkillEvidence) : Rat :=
  quantize 6 (events.map SkillEvidence.effectiveWeight).sum

/-! ## Confidence and recency -/

inductive ConfidenceCode
  | low | medium | high

/-- `basis_code` of a basis payload. -/
inductive BasisCode
  | lowWeight | mediumWeightDiversity | highWeightDiversityRecency | tooFewEvents | improving
  | stable | declining | firstScore | noQualifyingEvidence
deriving DecidableEq

structure ConfidenceResult where
  code : ConfidenceCode
  basisCode : BasisCode
  effectiveWeight : Rat
  exerciseTypeCount : Nat
  eventIds : List Nat

def classifyConfidence (events : List SkillEvidence) (formula : FormulaConfig) (asOf : Instant) :
    ConfidenceResult :=
  let rules := formula.confidence
  let qualifying := sortedBy SkillEvidence.key (qualifyingEvents events asOf)
  let total := totalWeight qualifying
  let exerciseCount := (qualifying.map SkillEvidence.exerciseType).dedup.length
  let cutoff := asOf - seconds (86400 * rules.highRecentAssessmentDays)
  let recentAssessment := qualifying.any fun event =>
    (event.practiceMode == .timedAssessment || event.practiceMode == .mockInterview) &&
      decide (cutoff ≤ event.occurredAt ∧ event.occurredAt ≤ asOf)
  let reviewedOutput := qualifying.any fun event =>
    event.reviewedArtifact || event.scoredRecording
  let independentAttempt := qualifying.any fun event =>
    event.practiceMode == .independentPractice && event.attemptKind == .attemptA
  let high := decide (rules.highMinimumEffectiveWeight ≤ total) &&
    decide (rules.highMinimumExerciseTypes ≤ exerciseCount) && recentAssessment &&
    (reviewedOutput || !rules.highRequiresReviewedArtifactOrRecording)
  let medium := decide (rules.mediumMinimumEffectiveWeight ≤ total) &&
    decide (rules.mediumMinimumExerciseTypes ≤ exerciseCount) &&
    (independentAttempt || !rules.mediumRequiresIndependentAttempt)
  let (code, basis) : ConfidenceCode × BasisCode :=
    if high then (.high, .highWeightDiversityRecency)
    else if medium then (.medium, .mediumWeightDiversity)
    else (.low, .lowWeight)
  ⟨code, basis, total, exerciseCount, qualifying.map SkillEvidence.eventId⟩

inductive RecencyCode
  | fresh | aging | stale | noEvidence

structure RecencyResult where
  code : RecencyCode
  latestEvidenceAt : Option Instant
  ageDays : Option Int

def classifyRecency (events : List SkillEvidence) (rules : RecencyRules) (asOf : Instant) :
    RecencyResult :=
  match ((qualifyingEvents events asOf).map SkillEvidence.occurredAt).max? with
  | none => ⟨.noEvidence, none, none⟩
  | some latest =>
    let ageDays := max 0 (asOf - latest) / 86400000000
    let code : RecencyCode :=
      if ageDays ≤ rules.freshMaxDays then .fresh
      else if ageDays ≤ rules.agingMaxDays then .aging
      else .stale
    ⟨code, some latest, some ageDays⟩

/-! ## The estimate -/

inductive InclusionCode
  | included | discountedSameDay | excludedNonqualifying | excludedOutsideWindow
deriving DecidableEq

structure EvidenceWeightManifestItem where
  eventId : Nat
  rawWeight : Rat
  usedWeight : Rat
  inclusion : InclusionCode

/-- An event of the window with the weight it is used with. -/
structure Adjusted where
  event : SkillEvidence
  item : EvidenceWeightManifestItem

def group (event : SkillEvidence) : String × String × Int :=
  (event.exerciseType, event.scenarioKey, date event.occurredAt)

/-- One event of the loop over the window; `seen` are the groups before it. -/
def adjust (formula : FormulaConfig) (seen : List (String × String × Int))
    (event : SkillEvidence) : Adjusted :=
  let rank := seen.count (group event) + 1
  let rawWeight := quantize 6 event.effectiveWeight
  let discounted := decide (formula.fullWeightSameDayLimit < rank)
  let usedWeight :=
    if discounted then quantize 6 (rawWeight * formula.sameDayRepetitionFactor) else rawWeight
  { event := { event with effectiveWeight := usedWeight }
    item := ⟨event.eventId, rawWeight, usedWeight,
      if discounted then .discountedSameDay else .included⟩ }

def adjustAll (formula : FormulaConfig) :
    List (String × String × Int) → List SkillEvidence → List Adjusted
  | _, [] => []
  | seen, event :: rest =>
    adjust formula seen event :: adjustAll formula (group event :: seen) rest

structure SkillEstimateResult where
  formulaVersion : String
  estimate : Rat
  contributingEventIds : List Nat
  excludedEventIds : List Nat
  discountedEventIds : List Nat
  qualifyingEventCount : Nat
  weightManifest : List EvidenceWeightManifestItem
  totalEffectiveWeight : Rat
  monthOneTargetGap : Rat
  finalTargetGap : Rat
  confidence : ConfidenceResult
  trend : TrendResult
  recency : RecencyResult
  lastStrongEvidenceAt : Option Instant

def window (events : List SkillEvidence) (formula : FormulaConfig) (asOf : Instant) :
    List SkillEvidence :=
  lastOf formula.latestQualifyingEvents
    (sortedBy SkillEvidence.key (qualifyingEvents events asOf))

def strongModes : List EvidenceMode := [.timedAssessment, .mockInterview, .realInterview]

def estimateChecks (baseline monthOneTarget finalTarget : Rat) (events : List SkillEvidence)
    (formula : FormulaConfig) : List (Bool × EvidenceEstimateError) :=
  let outside (value : Rat) : Bool := !decide (0 ≤ value ∧ value ≤ 4)
  [ (outside baseline, ⟨"baseline must be a Decimal from 0 to 4"⟩),
    (outside monthOneTarget, ⟨"month_one_target must be a Decimal from 0 to 4"⟩),
    (outside finalTarget, ⟨"final_target must be a Decimal from 0 to 4"⟩),
    (!decide (events.map SkillEvidence.eventId).Nodup, ⟨"event IDs must be unique"⟩),
    (events.any fun event => decide (formula.maximumEffectiveWeightPerEvent <
        event.effectiveWeight),
      ⟨"effective_weight exceeds the configured per-event maximum"⟩) ]

/-- `estimate_skill` after its checks. -/
def estimateOf (baseline monthOneTarget finalTarget : Rat) (events : List SkillEvidence)
    (formula : FormulaConfig) (asOf : Instant) : SkillEstimateResult :=
  let selected := window events formula asOf
  let selectedIds := selected.map SkillEvidence.eventId
  let excluded := sortedBy SkillEvidence.key
    (events.filter fun event => event.eventId ∉ selectedIds)
  let adjusted := adjustAll formula [] selected
  let used := adjusted.map Adjusted.event
  let manifest := adjusted.map Adjusted.item
  let total := totalWeight used
  let numerator := baseline * formula.priorWeight +
    (used.map fun event => event.performanceScore * event.effectiveWeight).sum
  let estimate := quantize 3 (numerator / (formula.priorWeight + total))
  { formulaVersion := formula.version
    estimate := estimate
    contributingEventIds := used.map SkillEvidence.eventId
    excludedEventIds := excluded.map SkillEvidence.eventId
    discountedEventIds := (manifest.filter fun item => item.inclusion = .discountedSameDay).map
      EvidenceWeightManifestItem.eventId
    qualifyingEventCount := used.length
    weightManifest := manifest
    totalEffectiveWeight := total
    monthOneTargetGap := monthOneTarget - estimate
    finalTargetGap := finalTarget - estimate
    confidence := classifyConfidence used formula asOf
    trend := calculateTrend (used.map SkillEvidence.trendEvent) formula.trend
    recency := classifyRecency used formula.recency asOf
    lastStrongEvidenceAt := ((used.filter fun event => event.practiceMode ∈ strongModes).map
      SkillEvidence.occurredAt).max? }

def estimateSkill (baseline monthOneTarget finalTarget : Rat) (events : List SkillEvidence)
    (formula : FormulaConfig) (asOf : Instant) :
    Except EvidenceEstimateError SkillEstimateResult := do
  raiseFirst (estimateChecks baseline monthOneTarget finalTarget events formula)
  return estimateOf baseline monthOneTarget finalTarget events formula asOf

/-! ## Portfolio judgment

`score_portfolio_judgment`: the 0 to 20 composite of one evaluation and its trend
over the scores before it. -/

/-- `PortfolioScoringError`, with its message. -/
structure PortfolioScoringError where
  message : String

structure PortfolioHistoryItem where
  scoreId : Nat
  totalScore : Rat
  scoredAt : Instant

def PortfolioHistoryItem.trendEvent (item : PortfolioHistoryItem) : TrendEvent :=
  ⟨item.scoreId, item.totalScore, 1, item.scoredAt⟩

structure PortfolioComponentScore where
  slug : String
  score : Rat
  maximum : Rat

structure PortfolioScoreResult where
  totalScore : Rat
  components : List PortfolioComponentScore
  trend : TrendResult

/-- `_PORTFOLIO_TREND_RULES_BY_FORMULA` -/
def portfolioTrendRules (formulaVersion : String) : Option TrendRules :=
  if formulaVersion = "seed-v1" then
    some {
      recentEventCount := 3
      precedingEventCount := 3
      minimumDelta := 5 / 4
      recent_pos := by decide
      preceding_pos := by decide
      counts_le := by decide
      delta_pos := by norm_num
      delta_le := by norm_num
      delta_places := by decide +kernel }
  else none

def portfolioScore (scores : List (String × Rat)) (dimension : RubricDimensionConfig) :
    Except PortfolioScoringError PortfolioComponentScore :=
  match scores.lookup dimension.slug with
  | none => .error ⟨"every portfolio component requires an independent score"⟩
  | some value =>
    if value < 0 then .error ⟨"component score must be a nonnegative Decimal"⟩
    else if dimension.maximum < value then
      .error ⟨dimension.slug ++ " exceeds its maximum " ++ toString dimension.maximum⟩
    else .ok ⟨dimension.slug, value, dimension.maximum⟩

def scorePortfolioJudgment (scores : List (String × Rat)) (rubric : RubricConfig)
    (formulaVersion : String) (history : List PortfolioHistoryItem) :
    Except PortfolioScoringError PortfolioScoreResult := do
  raiseFirst [(rubric.slug != "portfolio_judgment" || rubric.scaleMax != 20,
    ⟨"portfolio rubric must use the fixed 0 to 20 scale"⟩)]
  let some rules := portfolioTrendRules formulaVersion
    | throw ⟨"unknown portfolio formula version"⟩
  let expected := rubric.dimensions.map RubricDimensionConfig.slug
  raiseFirst [(!decide (scores.map Prod.fst ⊆ expected ∧ expected ⊆ scores.map Prod.fst),
    ⟨"every portfolio component requires an independent score"⟩)]
  let components ← rubric.dimensions.mapM (portfolioScore scores)
  let total := quantize 3 (components.map PortfolioComponentScore.score).sum
  raiseFirst [(!decide (rubric.scaleMin ≤ total ∧ total ≤ rubric.scaleMax),
    ⟨"portfolio total escaped its configured scale"⟩)]
  return {
    totalScore := total
    components := components
    trend :=
      if history = [] then { code := .firstScore, eventIds := [] }
      else calculateTrend (history.map PortfolioHistoryItem.trendEvent) rules }

end TamForge.Evidence
