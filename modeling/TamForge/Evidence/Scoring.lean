import TamForge.Evidence.ConfigModels
import TamForge.ProofSupport.Checks

/-!
# Scoring calculations

`evidence/scoring.py`: the weighted rubric score, the effective weight of an
event, and the impact of an exercise on a skill.
-/

namespace TamForge.Evidence

open Models ProofSupport ProofSupport.Decimals

/-- `ScoringError`, with its message. -/
structure ScoringError where
  message : String

structure DimensionScoreInput where
  slug : String
  score : Rat
  weight : Rat

structure PerformanceScoreResult where
  score : Rat
  weightedSum : Rat
  weightSum : Rat

/-- `text.strip()` is not empty. -/
def nonblank (text : String) : Bool := text.toList.any fun c => !c.isWhitespace

def checkDimension (seen : List String) (dimension : DimensionScoreInput) :
    Except ScoringError Unit :=
  if !nonblank dimension.slug ∨ dimension.slug ∈ seen then
    .error ⟨"dimension slugs must be nonblank and unique"⟩
  else if ¬(0 ≤ dimension.score ∧ dimension.score ≤ 4) then
    .error ⟨"dimension score must be between 0 and 4"⟩
  else if dimension.weight ≤ 0 then
    .error ⟨"dimension weight must be greater than zero"⟩
  else
    .ok ()

def checkDimensions : List String → List DimensionScoreInput → Except ScoringError Unit
  | _, [] => .ok ()
  | seen, dimension :: rest => do
      checkDimension seen dimension
      checkDimensions (dimension.slug :: seen) rest

def weightedSum (dimensions : List DimensionScoreInput) : Rat :=
  (dimensions.map fun dimension => dimension.score * dimension.weight).sum

def weightSum (dimensions : List DimensionScoreInput) : Rat :=
  (dimensions.map DimensionScoreInput.weight).sum

def calculatePerformanceScore (dimensions : List DimensionScoreInput) :
    Except ScoringError PerformanceScoreResult := do
  raiseFirst [(dimensions.isEmpty, ⟨"at least one rubric dimension is required"⟩)]
  checkDimensions [] dimensions
  let score := quantize 3 (weightedSum dimensions / weightSum dimensions)
  raiseFirst [
    (decide (weightSum dimensions ≤ 0),
      ⟨"dimension weight denominator must be greater than zero"⟩),
    (!decide (0 ≤ score ∧ score ≤ 4), ⟨"performance score escaped the configured scale"⟩)]
  return ⟨score, weightedSum dimensions, weightSum dimensions⟩

structure EffectiveWeightFactors where
  skillImpact : Rat
  practiceMode : Rat
  assistance : Rat
  evaluator : Rat
  difficulty : Rat

def EffectiveWeightFactors.product (factors : EffectiveWeightFactors) : Rat :=
  factors.skillImpact * factors.practiceMode * factors.assistance * factors.evaluator *
    factors.difficulty

structure EffectiveWeightResult where
  factors : EffectiveWeightFactors
  rawWeight : Rat
  effectiveWeight : Rat
  capped : Bool

def calculateEffectiveWeight (skillImpact : Rat) (practiceMode : EvidenceMode)
    (assistance : AssistanceCode) (evaluator : EvaluatorKind) (difficulty : DifficultyCode)
    (formula : FormulaConfig) : Except ScoringError EffectiveWeightResult :=
  if ¬(0 ≤ skillImpact ∧ skillImpact ≤ 1) then
    .error ⟨"skill impact must be between 0 and 1"⟩
  else
    let factors : EffectiveWeightFactors :=
      { skillImpact := skillImpact
        practiceMode :=
          if practiceMode = .pipelineOnly then 0 else formula.practiceModeFactor practiceMode
        assistance := formula.assistanceFactor assistance
        evaluator := formula.evaluatorFactor evaluator
        difficulty := formula.difficultyFactor difficulty }
    let raw := quantize 6 factors.product
    let maximum := quantize 6 formula.maximumEffectiveWeightPerEvent
    .ok ⟨factors, raw, min raw maximum, decide (maximum < raw)⟩

inductive ImpactSource
  | precommitSelector | unmapped | conditionNotMet | exerciseMapping

structure SkillImpactResult where
  weight : Rat
  source : ImpactSource

def mappedImpact (exercise : ExerciseTypeConfig) (skillSlug : String)
    (conditionsMet : List ConditionCode) : SkillImpactResult :=
  match exercise.skillImpact? skillSlug with
  | none => ⟨0, .unmapped⟩
  | some impact =>
    if impact.condition ≠ .always ∧ impact.condition ∉ conditionsMet then
      ⟨0, .conditionNotMet⟩
    else
      ⟨impact.weight, .exerciseMapping⟩

def resolveSkillImpact (exercise : ExerciseTypeConfig) (skillSlug : String)
    (conditionsMet : List ConditionCode) (selectedCompetency : Option String)
    (selectorCommittedBeforeAttempt : Bool) : Except ScoringError SkillImpactResult :=
  match selectedCompetency with
  | none => .ok (mappedImpact exercise skillSlug conditionsMet)
  | some selected =>
    if exercise.requiredPrecommitField = none ∨ selectorCommittedBeforeAttempt = false ∨
        selected ∉ exercise.allowedSelectedCompetencies then
      .error ⟨"dynamic impact requires a valid precommit selection"⟩
    else if skillSlug = selected then
      match exercise.selectedImpact with
      | none => .error ⟨"dynamic impact has no configured weight"⟩
      | some weight => .ok ⟨weight, .precommitSelector⟩
    else
      .ok (mappedImpact exercise skillSlug conditionsMet)

end TamForge.Evidence
