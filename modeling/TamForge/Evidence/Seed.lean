import TamForge.Evidence.Models

/-!
# Seeding a configuration

The rows that `seed_config` inserts for a bundle.
-/

namespace TamForge.Evidence

open ProofSupport

def Seeds.empty : Seeds where
  competencies := .empty
  exerciseTypes := .empty
  mappings := .empty
  rubrics := .empty
  dimensions := .empty

/-- `competency_by_slug[slug].id` -/
def competencyId (rows : List Competency) (slug : String) : Nat :=
  ((rows.find? fun row => row.slug = slug).map Competency.id).getD 0

/-- The rows of one exercise: its version, its impacts and, when it has a
selector, one dynamic impact for each competency that may be selected. -/
def seedExercise (ownerId configId : Nat) (competencies : List Competency) (seeds : Seeds)
    (exercise : ExerciseTypeConfig) : Seeds :=
  let (row, exerciseTypes) := seeds.exerciseTypes.insert fun id =>
    ⟨id, ownerId, configId, exercise.slug, exercise.mappingVersion, exercise.evidenceMode⟩
  let mapping (slug : String) (impact : Rat) (condition : ConditionCode) (id : Nat) :
      ExerciseSkillMapping :=
    ⟨id, ownerId, configId, row.id, competencyId competencies slug, impact, condition⟩
  let mapped := exercise.impacts.map fun impact =>
    mapping impact.skillSlug impact.weight impact.condition
  let selected := exercise.selectedImpact.toList.flatMap fun weight =>
    exercise.allowedSelectedCompetencies.map fun slug => mapping slug weight .reviewedDynamicImpact
  { seeds with
    exerciseTypes := exerciseTypes
    mappings := (seeds.mappings.insertAll (mapped ++ selected)).2 }

def seedRubric (ownerId configId : Nat) (seeds : Seeds) (rubric : RubricConfig) : Seeds :=
  let (row, rubrics) := seeds.rubrics.insert fun id =>
    ⟨id, ownerId, configId, rubric.slug, rubric.version⟩
  let dimensions := rubric.dimensions.zipIdx.map fun item id =>
    RubricDimension.mk id ownerId configId row.id item.1.slug item.1.weight item.1.maximum item.2
  { seeds with
    rubrics := rubrics
    dimensions := (seeds.dimensions.insertAll dimensions).2 }

/-- `seed_config`, for a configuration that is not seeded yet. -/
def seedConfig (ownerId configId : Nat) (bundle : ConfigBundle) (seeds : Seeds) : Seeds :=
  let (competencies, table) := seeds.competencies.insertAll (bundle.skills.map fun skill id =>
    ⟨id, ownerId, configId, skill.slug, skill.baseline, skill.monthOneTarget, skill.finalTarget⟩)
  let seeded := bundle.exerciseTypes.foldl (seedExercise ownerId configId competencies)
    { seeds with competencies := table }
  bundle.rubrics.foldl (seedRubric ownerId configId) seeded

/-! ## The shipped release

The scoring part of `config/`, with the exercises that the samples use.  The
formula is a parameter: nothing in the loader ties it to the rest. -/

theorem shippedCounts_le : 3 ≤ 1000 ∧ 3 ≤ 1000 := by decide

/-- `formula` of `tam-rubrics.yaml`. -/
def shippedFormula : FormulaConfig where
  version := "seed-v1"
  priorWeight := 2
  latestQualifyingEvents := 12
  fullWeightSameDayLimit := 2
  sameDayRepetitionFactor := 1 / 4
  maximumEffectiveWeightPerEvent := 23 / 20
  practiceModeFactor := fun
    | .exposureOnly => 0
    | .guidedPractice => 7 / 20
    | .independentPractice => 13 / 20
    | .timedAssessment => 9 / 10
    | .mockInterview => 1
    | .realInterview => 1
    | .pipelineOnly => 0
  assistanceFactor := fun
    | .noAi => 1
    | .aiAfterCommittedAttempt => 1
    | .aiHintsDuringAttempt => 3 / 4
    | .aiCoCreated => 2 / 5
    | .aiGenerated => 1 / 10
  evaluatorFactor := fun
    | .self => 3 / 5
    | .aiRubricReviewer => 3 / 4
    | .peer => 17 / 20
    | .humanCoach => 19 / 20
    | .explicitInterviewerFeedback => 1
  difficultyFactor := fun
    | .introductory => 4 / 5
    | .standard => 1
    | .advanced => 23 / 20
  confidence := {
    highMinimumEffectiveWeight := 7
    highMinimumExerciseTypes := 3
    highRecentAssessmentDays := 21
    highRequiresReviewedArtifactOrRecording := true
    mediumMinimumEffectiveWeight := 3
    mediumMinimumExerciseTypes := 2
    mediumRequiresIndependentAttempt := true
    weights_ordered := by decide +kernel
    counts_ordered := by decide
    medium_nonneg := by decide +kernel
    high_le := by decide +kernel
    weights_places := by decide +kernel
    medium_types_pos := by decide
    high_types_le := by decide
    recent_pos := by decide
    recent_le := by decide }
  trend := {
    recentEventCount := 3
    precedingEventCount := 3
    minimumDelta := 1 / 4
    recent_pos := Models.id_three_pos
    preceding_pos := Models.id_three_pos
    counts_le := shippedCounts_le
    delta_pos := by decide +kernel
    delta_le := by decide +kernel
    delta_places := by decide +kernel }
  recency := ⟨7, 21, by decide, by decide, by decide⟩
  version_valid := by decide
  priorWeight_pos := by decide +kernel
  priorWeight_le := by decide +kernel
  priorWeight_places := by decide +kernel
  latest_pos := by decide
  latest_le := by decide
  sameDayLimit_pos := by decide
  sameDayLimit_le := by decide
  repetition_pos := by decide +kernel
  repetition_lt := by decide +kernel
  repetition_places := by decide +kernel
  maximum_pos := by decide +kernel
  maximum_le := by decide +kernel
  maximum_places := by decide +kernel
  practiceMode_factor := by intro mode _; cases mode <;> decide +kernel
  assistance_factor := by intro code; cases code <;> decide +kernel
  evaluator_factor := by intro kind; cases kind <;> decide +kernel
  difficulty_factor := by intro code; cases code <;> decide +kernel

def shippedSkillRows : List (String × Rat × Rat × Rat) :=
  [ ("api_integration_architecture", 3, 3, 13 / 4),
    ("structured_troubleshooting", 2, 5 / 2, 3),
    ("sql_reconciliation", 1, 2, 11 / 4),
    ("distributed_systems_reliability", 2, 5 / 2, 3),
    ("payments_fintech_systems", 2, 5 / 2, 3),
    ("technical_discovery", 2, 5 / 2, 3),
    ("incident_escalation_management", 2, 5 / 2, 3),
    ("implementation_project_management", 2, 5 / 2, 11 / 4),
    ("proactive_account_strategy", 2, 5 / 2, 11 / 4),
    ("executive_communication", 1, 2, 3),
    ("cross_functional_influence", 2, 5 / 2, 11 / 4),
    ("business_value_framing", 1, 2, 3),
    ("technical_writing", 1, 2, 11 / 4),
    ("tam_english", 1, 2, 11 / 4) ]

theorem shippedSkillRows_valid : ∀ row ∈ shippedSkillRows, Models.slug row.1 = true ∧
    ∀ score ∈ [row.2.1, row.2.2.1, row.2.2.2],
      0 ≤ score ∧ score ≤ 4 ∧ Decimals.HasPlaces 3 score := by
  decide +kernel

def shippedSkills : List SkillConfig :=
  shippedSkillRows.attach.map fun row =>
    { slug := row.1.1
      baseline := row.1.2.1
      monthOneTarget := row.1.2.2.1
      finalTarget := row.1.2.2.2
      slug_valid := (shippedSkillRows_valid row.1 row.2).1
      scores_bounded := (shippedSkillRows_valid row.1 row.2).2 }

theorem shippedSkills_slugs :
    shippedSkills.map SkillConfig.slug = shippedSkillRows.map Prod.fst := rfl

def assessmentExercise : ExerciseTypeConfig where
  slug := "sql_no_ai_timed_assessment"
  mappingVersion := "seed-v1"
  evidenceMode := .timedAssessment
  impacts := [
    { skillSlug := "sql_reconciliation"
      weight := 1
      skillSlug_valid := by decide
      weight_pos := by decide +kernel
      weight_le := by decide +kernel
      weight_places := by decide +kernel },
    { skillSlug := "tam_english"
      weight := 3 / 20
      condition := .explainedAloudInEnglish
      skillSlug_valid := by decide
      weight_pos := by decide +kernel
      weight_le := by decide +kernel
      weight_places := by decide +kernel }]
  slug_valid := by decide
  mappingVersion_valid := by decide
  allowed_valid := by decide
  selectedImpact_bounds := by decide
  selector_impact := rfl
  selector_domain := by decide
  selector_story := by decide

def storyExercise : ExerciseTypeConfig where
  slug := "behavioral_story_practice"
  mappingVersion := "seed-v1"
  evidenceMode := .mockInterview
  impacts := [
    { skillSlug := "tam_english"
      weight := 7 / 10
      condition := .spokenOrWrittenEnglish
      skillSlug_valid := by decide
      weight_pos := by decide +kernel
      weight_le := by decide +kernel
      weight_places := by decide +kernel },
    { skillSlug := "executive_communication"
      weight := 2 / 5
      skillSlug_valid := by decide
      weight_pos := by decide +kernel
      weight_le := by decide +kernel
      weight_places := by decide +kernel },
    { skillSlug := "business_value_framing"
      weight := 3 / 10
      skillSlug_valid := by decide
      weight_pos := by decide +kernel
      weight_le := by decide +kernel
      weight_places := by decide +kernel }]
  requiredPrecommitField := some .storyCompetencySlug
  allowedStoryCompetencies := ["incident_escalation_management", "cross_functional_influence",
    "structured_troubleshooting"]
  selectedImpact := some (2 / 5)
  slug_valid := by decide
  mappingVersion_valid := by decide
  allowed_valid := by decide
  selectedImpact_bounds := by decide +kernel
  selector_impact := rfl
  selector_domain := by decide
  selector_story := by decide

structure DimensionRow where
  slug : String
  maximum : Rat
  weight : Rat

def DimensionRow.Valid (row : DimensionRow) : Prop :=
  Models.slug row.slug = true ∧ 0 < row.maximum ∧ row.maximum ≤ 20 ∧ 0 < row.weight ∧
    row.weight ≤ 1 ∧ Decimals.HasPlaces 6 row.weight

instance (row : DimensionRow) : Decidable row.Valid := inferInstanceAs (Decidable (_ ∧ _))

def DimensionRow.config (row : DimensionRow) (h : row.Valid) : RubricDimensionConfig where
  slug := row.slug
  name := row.slug
  maximum := row.maximum
  weight := row.weight
  slug_valid := h.1
  maximum_pos := h.2.1
  maximum_le := h.2.2.1
  weight_pos := h.2.2.2.1
  weight_le := h.2.2.2.2.1
  weight_places := h.2.2.2.2.2

def portfolioRows : List DimensionRow :=
  [ ⟨"impact_risk_assessment", 4, 1 / 5⟩, ⟨"explicit_prioritization", 3, 3 / 20⟩,
    ⟨"delegation_ownership", 3, 3 / 20⟩, ⟨"communication_control", 3, 3 / 20⟩,
    ⟨"proactive_work_protection", 2, 1 / 10⟩, ⟨"evidence_based_reprioritization", 3, 3 / 20⟩,
    ⟨"english_clarity", 2, 1 / 10⟩ ]

def blockRows : List DimensionRow :=
  [ ⟨"correctness", 4, 1 / 4⟩, ⟨"structure", 4, 3 / 20⟩, ⟨"relevance", 4, 3 / 20⟩,
    ⟨"customer_judgment", 4, 3 / 20⟩, ⟨"technical_reasoning", 4, 3 / 20⟩,
    ⟨"business_framing", 4, 3 / 20⟩ ]

theorem dimensionRows_valid : ∀ row ∈ portfolioRows ++ blockRows, row.Valid := by
  decide +kernel

def portfolioRubric : RubricConfig where
  slug := "portfolio_judgment"
  version := "seed-v1"
  scaleMin := 0
  scaleMax := 20
  dimensions := portfolioRows.attach.map fun row =>
    row.1.config (dimensionRows_valid row.1 (List.mem_append_left _ row.2))
  slug_valid := by decide
  version_valid := by decide
  scaleMin_nonneg := by decide +kernel
  scaleMax_le := by decide +kernel
  scale_ordered := by decide +kernel

def blockRubric : RubricConfig where
  slug := "tam_block"
  version := "seed-v1"
  scaleMin := 0
  scaleMax := 4
  dimensions := blockRows.attach.map fun row =>
    row.1.config (dimensionRows_valid row.1 (List.mem_append_right _ row.2))
  slug_valid := by decide
  version_valid := by decide
  scaleMin_nonneg := by decide +kernel
  scaleMax_le := by decide +kernel
  scale_ordered := by decide +kernel

theorem linked_assessment : LinkedExercise shippedSkills assessmentExercise where
  impacts_nodup := by decide
  impacts_known := by rw [shippedSkills_slugs]; decide
  allowed_nodup := by decide
  allowed_known := by decide
  allowed_disjoint := by decide
  unscored := by decide
  english := by decide
  composite := rfl

theorem linked_story : LinkedExercise shippedSkills storyExercise where
  impacts_nodup := by decide
  impacts_known := by rw [shippedSkills_slugs]; decide
  allowed_nodup := by decide
  allowed_known := by rw [shippedSkills_slugs]; decide
  allowed_disjoint := by decide
  unscored := by decide
  english := by decide
  composite := rfl

def bundleOf (formula : FormulaConfig) (hversion : formula.version = "seed-v1") : ConfigBundle where
  skills := shippedSkills
  exerciseTypes := [assessmentExercise, storyExercise]
  formula := formula
  rubrics := [portfolioRubric, blockRubric]
  skills_fourteen := by simp [shippedSkills, shippedSkillRows]
  skills_nodup := by rw [shippedSkills_slugs]; decide
  exercises_nodup := by decide
  exercises_linked := by
    simp only [List.mem_cons, List.not_mem_nil, or_false, forall_eq_or_imp, forall_eq]
    exact ⟨linked_assessment, linked_story⟩
  rubrics_nodup := by decide
  dimensions_nodup := by decide
  portfolio := ⟨portfolioRubric, by simp, rfl, by decide +kernel, by decide +kernel⟩
  release := by
    rw [hversion]
    exact ⟨by decide, by decide⟩

def shippedBundle : ConfigBundle := bundleOf shippedFormula rfl

end TamForge.Evidence
