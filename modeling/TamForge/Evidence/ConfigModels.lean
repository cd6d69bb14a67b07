import TamForge.Models.Base
import TamForge.ProofSupport.Decimals
import Mathlib.Data.List.Nodup

/-!
# Scoring configuration

The checked-in configuration as the loader hands it out: every item carries
the bounds of its pydantic model, and a bundle carries what linking its four
files established.  Decimals are exact rationals.
-/

namespace TamForge.Evidence

open Models ProofSupport.Decimals

inductive EvidenceMode
  | exposureOnly | guidedPractice | independentPractice | timedAssessment | mockInterview
  | realInterview | pipelineOnly
deriving DecidableEq

inductive ConditionCode
  | always | spokenOrWrittenEnglish | explainedAloudInEnglish | reviewedDynamicImpact
deriving DecidableEq

/-- `ASSISTANCE_CODES` -/
inductive AssistanceCode
  | noAi | aiAfterCommittedAttempt | aiHintsDuringAttempt | aiCoCreated | aiGenerated
deriving DecidableEq

/-- `EVALUATOR_KINDS` -/
inductive EvaluatorKind
  | self | aiRubricReviewer | peer | humanCoach | explicitInterviewerFeedback
deriving DecidableEq

/-- `DIFFICULTY_CODES` -/
inductive DifficultyCode
  | introductory | standard | advanced
deriving DecidableEq

inductive SelectorField
  | domainCompetencySlug | storyCompetencySlug
deriving DecidableEq

def SelectorField.text : SelectorField → String
  | domainCompetencySlug => "domain_competency_slug"
  | storyCompetencySlug => "story_competency_slug"

structure SkillConfig where
  slug : String
  baseline : Rat
  monthOneTarget : Rat
  finalTarget : Rat
  slug_valid : Models.slug slug = true
  scores_bounded : ∀ score ∈ [baseline, monthOneTarget, finalTarget],
    0 ≤ score ∧ score ≤ 4 ∧ HasPlaces 3 score

structure SkillImpactConfig where
  skillSlug : String
  weight : Rat
  condition : ConditionCode := .always
  skillSlug_valid : Models.slug skillSlug = true
  weight_pos : 0 < weight
  weight_le : weight ≤ 1
  weight_places : HasPlaces 6 weight

structure CompositeMetricConfig where
  metricSlug : String
  weight : Rat
  weight_pos : 0 < weight
  weight_le : weight ≤ 1

/-- `validate_selector_shape` is the last four fields. -/
structure ExerciseTypeConfig where
  slug : String
  mappingVersion : String
  evidenceMode : EvidenceMode
  impacts : List SkillImpactConfig
  requiredPrecommitField : Option SelectorField := none
  allowedDomainCompetencies : List String := []
  allowedStoryCompetencies : List String := []
  selectedImpact : Option Rat := none
  compositeMetrics : List CompositeMetricConfig := []
  slug_valid : Models.slug slug = true
  mappingVersion_valid : versionKey mappingVersion = true
  allowed_valid : ∀ selected ∈ allowedDomainCompetencies ++ allowedStoryCompetencies,
    Models.slug selected = true
  selectedImpact_bounds : ∀ weight ∈ selectedImpact, 0 < weight ∧ weight ≤ 1 ∧ HasPlaces 6 weight
  selector_impact : requiredPrecommitField.isSome = selectedImpact.isSome
  selector_domain : allowedDomainCompetencies ≠ [] ↔
    requiredPrecommitField = some .domainCompetencySlug
  selector_story : allowedStoryCompetencies ≠ [] ↔
    requiredPrecommitField = some .storyCompetencySlug

namespace ExerciseTypeConfig

/-- `skill_impacts.get(slug)`; in a dictionary the last impact of a skill wins. -/
def skillImpact? (exercise : ExerciseTypeConfig) (slug : String) : Option SkillImpactConfig :=
  exercise.impacts.reverse.find? fun impact => impact.skillSlug = slug

/-- `self.allowed_domain_competencies or self.allowed_story_competencies` -/
def allowedSelectedCompetencies (exercise : ExerciseTypeConfig) : List String :=
  if exercise.allowedDomainCompetencies.isEmpty then exercise.allowedStoryCompetencies
  else exercise.allowedDomainCompetencies

end ExerciseTypeConfig

/-- `Factor` -/
def IsFactor (value : Rat) : Prop := 0 ≤ value ∧ value ≤ 23 / 20 ∧ HasPlaces 6 value

instance (value : Rat) : Decidable (IsFactor value) :=
  inferInstanceAs (Decidable (_ ∧ _ ∧ _))

structure ConfidenceRules where
  highMinimumEffectiveWeight : Rat
  highMinimumExerciseTypes : Nat
  highRecentAssessmentDays : Nat
  highRequiresReviewedArtifactOrRecording : Bool
  mediumMinimumEffectiveWeight : Rat
  mediumMinimumExerciseTypes : Nat
  mediumRequiresIndependentAttempt : Bool
  weights_ordered : mediumMinimumEffectiveWeight ≤ highMinimumEffectiveWeight
  counts_ordered : mediumMinimumExerciseTypes ≤ highMinimumExerciseTypes
  medium_nonneg : 0 ≤ mediumMinimumEffectiveWeight
  high_le : highMinimumEffectiveWeight ≤ 1000
  weights_places : HasPlaces 6 mediumMinimumEffectiveWeight ∧ HasPlaces 6 highMinimumEffectiveWeight
  medium_types_pos : 0 < mediumMinimumExerciseTypes
  high_types_le : highMinimumExerciseTypes ≤ 1000
  recent_pos : 0 < highRecentAssessmentDays
  recent_le : highRecentAssessmentDays ≤ 3650

structure RecencyRules where
  freshMaxDays : Nat
  agingMaxDays : Nat
  aging_pos : 0 < agingMaxDays
  aging_le : agingMaxDays ≤ 3650
  ordered : freshMaxDays ≤ agingMaxDays

structure TrendRules where
  recentEventCount : Nat
  precedingEventCount : Nat
  minimumDelta : Rat
  recent_pos : 0 < recentEventCount
  preceding_pos : 0 < precedingEventCount
  counts_le : recentEventCount ≤ 1000 ∧ precedingEventCount ≤ 1000
  delta_pos : 0 < minimumDelta
  delta_le : minimumDelta ≤ 4
  delta_places : HasPlaces 3 minimumDelta

/-- The qualifying modes and assistance codes are fixed by the model's own
validator, and so are the three qualification switches. -/
structure FormulaConfig where
  version : String
  priorWeight : Rat
  latestQualifyingEvents : Nat
  fullWeightSameDayLimit : Nat
  sameDayRepetitionFactor : Rat
  maximumEffectiveWeightPerEvent : Rat
  practiceModeFactor : EvidenceMode → Rat
  assistanceFactor : AssistanceCode → Rat
  evaluatorFactor : EvaluatorKind → Rat
  difficultyFactor : DifficultyCode → Rat
  confidence : ConfidenceRules
  trend : TrendRules
  recency : RecencyRules
  version_valid : versionKey version = true
  priorWeight_pos : 0 < priorWeight
  priorWeight_le : priorWeight ≤ 1000
  priorWeight_places : HasPlaces 6 priorWeight
  latest_pos : 0 < latestQualifyingEvents
  latest_le : latestQualifyingEvents ≤ 1000
  sameDayLimit_pos : 0 < fullWeightSameDayLimit
  sameDayLimit_le : fullWeightSameDayLimit ≤ 1000
  repetition_pos : 0 < sameDayRepetitionFactor
  repetition_lt : sameDayRepetitionFactor < 1
  repetition_places : HasPlaces 6 sameDayRepetitionFactor
  maximum_pos : 0 < maximumEffectiveWeightPerEvent
  maximum_le : maximumEffectiveWeightPerEvent ≤ 23 / 20
  maximum_places : HasPlaces 6 maximumEffectiveWeightPerEvent
  practiceMode_factor : ∀ mode, mode ≠ .pipelineOnly → IsFactor (practiceModeFactor mode)
  assistance_factor : ∀ code, IsFactor (assistanceFactor code)
  evaluator_factor : ∀ kind, IsFactor (evaluatorFactor kind)
  difficulty_factor : ∀ code, IsFactor (difficultyFactor code)

def qualifyingModes : List EvidenceMode :=
  [.independentPractice, .timedAssessment, .mockInterview, .realInterview]

def qualifyingAssistanceCodes : List AssistanceCode :=
  [.noAi, .aiAfterCommittedAttempt]

structure RubricDimensionConfig where
  slug : String
  name : String
  maximum : Rat
  weight : Rat
  slug_valid : Models.slug slug = true
  maximum_pos : 0 < maximum
  maximum_le : maximum ≤ 20
  weight_pos : 0 < weight
  weight_le : weight ≤ 1
  weight_places : HasPlaces 6 weight

structure RubricConfig where
  slug : String
  version : String
  scaleMin : Rat
  scaleMax : Rat
  dimensions : List RubricDimensionConfig
  slug_valid : Models.slug slug = true
  version_valid : versionKey version = true
  scaleMin_nonneg : 0 ≤ scaleMin
  scaleMax_le : scaleMax ≤ 20
  scale_ordered : scaleMin < scaleMax

/-- What `_link_exercises` checks of one exercise against the skills. -/
structure LinkedExercise (skills : List SkillConfig) (exercise : ExerciseTypeConfig) : Prop where
  impacts_nodup : (exercise.impacts.map SkillImpactConfig.skillSlug).Nodup
  impacts_known : ∀ impact ∈ exercise.impacts, impact.skillSlug ∈ skills.map SkillConfig.slug
  allowed_nodup : exercise.allowedSelectedCompetencies.Nodup
  allowed_known : ∀ selected ∈ exercise.allowedSelectedCompetencies,
    selected ∈ skills.map SkillConfig.slug
  allowed_disjoint : ∀ selected ∈ exercise.allowedSelectedCompetencies,
    selected ∉ exercise.impacts.map SkillImpactConfig.skillSlug
  unscored : exercise.slug ∈ ["official_reading", "company_product_research",
    "application_or_outreach"] → exercise.impacts = []
  english : ∀ impact ∈ exercise.impacts, impact.skillSlug = "tam_english" →
    impact.condition ∈ [.spokenOrWrittenEnglish, .explainedAloudInEnglish]
  composite : exercise.compositeMetrics.map (fun metric => (metric.metricSlug, metric.weight)) =
    if exercise.slug = "portfolio_triage" then [("portfolio_judgment", 1)] else []

/-- The linked configuration.  `release` says that mapping, formula and rubric
versions are one release. -/
structure ConfigBundle where
  skills : List SkillConfig
  exerciseTypes : List ExerciseTypeConfig
  formula : FormulaConfig
  rubrics : List RubricConfig
  skills_fourteen : skills.length = 14
  skills_nodup : (skills.map SkillConfig.slug).Nodup
  exercises_nodup : (exerciseTypes.map ExerciseTypeConfig.slug).Nodup
  exercises_linked : ∀ exercise ∈ exerciseTypes, LinkedExercise skills exercise
  rubrics_nodup : (rubrics.map RubricConfig.slug).Nodup
  dimensions_nodup : ∀ rubric ∈ rubrics,
    (rubric.dimensions.map RubricDimensionConfig.slug).Nodup
  portfolio : ∃ rubric ∈ rubrics, rubric.slug = "portfolio_judgment" ∧
    (rubric.dimensions.map RubricDimensionConfig.maximum).sum = 20 ∧
    (rubric.dimensions.map RubricDimensionConfig.weight).sum = 1
  release : (∀ exercise ∈ exerciseTypes, exercise.mappingVersion = formula.version) ∧
    ∀ rubric ∈ rubrics, rubric.version = formula.version

namespace ConfigBundle

def exercise (bundle : ConfigBundle) (slug : String) : Option ExerciseTypeConfig :=
  bundle.exerciseTypes.find? fun exercise => exercise.slug = slug

def rubric (bundle : ConfigBundle) (slug : String) : Option RubricConfig :=
  bundle.rubrics.find? fun rubric => rubric.slug = slug

end ConfigBundle

end TamForge.Evidence
