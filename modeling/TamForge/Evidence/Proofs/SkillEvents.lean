import TamForge.Evidence.Proofs.Context

/-!
# Events that the ledger accepts

`prepare_evaluation` computes an event and `validate_skill_evidence_event`
computes it again from the stored rows.  The two agree on everything but the
cap: the validator does not know `maximum_effective_weight_per_event`.
-/

namespace TamForge.Evidence

open Learning Models ProofSupport ProofSupport.Decimals

variable {lineage : Lineage} {ledger : Ledger} {now : Instant} {ownerId : Nat}
  {command : EvidenceEvaluationCommand} {context : EvaluationContext}
  {prepared : PreparedEvaluation}

/-! ## The scores of a skill -/

variable {slug : String} {input : DimensionScoreInput}

theorem scoreInput_ok (h : scoreInput context command slug = .ok input) :
    ∃ supplied persisted,
      command.dimensions.find? (fun input => input.dimensionSlug = slug) = some supplied ∧
      context.dimensions.find? (fun persisted => persisted.slug = slug) = some persisted ∧
      supplied.availability = .scored ∧ supplied.score = some input.score ∧ input.score ≤ 4 ∧
      input.weight = persisted.weight ∧ input.slug = slug := by
  unfold scoreInput at h
  split at h
  · rename_i supplied persisted hsupplied hpersisted
    split at h
    · cases h
    · rename_i score hscore
      split at h
      · cases h
      · rename_i havail
        split at h
        · cases h
        · rename_i hle
          cases h
          exact ⟨supplied, persisted, hsupplied, hpersisted, not_not.mp havail, hscore,
            not_lt.mp hle, rfl, rfl⟩
  · cases h

theorem find?_of_forall₂ {α β : Type} {R : α → β → Prop} {p : α → Bool} {q : β → Bool}
    {xs : List α} {ys : List β} (h : List.Forall₂ R xs ys) (hpq : ∀ x y, R x y → q y = p x)
    {x : α} (hx : xs.find? p = some x) : ∃ y, ys.find? q = some y ∧ R x y := by
  induction h with
  | nil => cases hx
  | @cons a b xs ys hab _ ih =>
    rw [List.find?_cons] at hx
    rw [List.find?_cons, hpq a b hab]
    cases hp : p a with
    | true =>
      rw [hp] at hx
      cases hx
      exact ⟨b, rfl, hab⟩
    | false =>
      rw [hp] at hx
      exact ih hx

variable {dimensions : List PreparedDimensionScore} {impacts : List (String × SkillImpactResult)}
  {events : List PreparedSkillEvent} {components : Option (List (String × Rat))}

theorem Prepares.dimension (h : Prepares context command dimensions impacts events components)
    (hinput : scoreInput context command slug = .ok input) :
    ∃ dimension, dimensions.find? (fun dimension => dimension.dimensionSlug = slug) =
        some dimension ∧ dimension.availability = .scored ∧
      dimension.score = some input.score ∧ dimension.weight = some input.weight := by
  obtain ⟨supplied, persisted, hsupplied, hpersisted, havail, hscore, -, hwt, -⟩ :=
    scoreInput_ok hinput
  obtain ⟨dimension, hfind, hok⟩ := find?_of_forall₂ (mapM_ok_iff.mp h.dimensions_ok)
    (q := fun dimension : PreparedDimensionScore => dimension.dimensionSlug = slug) (by
      intro persisted dimension hok
      obtain ⟨supplied, -, -, rfl⟩ := prepareDimension_ok hok
      rfl) hpersisted
  obtain ⟨other, ho, -, rfl⟩ := prepareDimension_ok hok
  have hslug : persisted.slug = slug := by simpa using List.find?_some hpersisted
  rw [hslug, hsupplied] at ho
  cases ho
  refine ⟨_, hfind, havail, hscore, ?_⟩
  rw [hwt]
  exact if_pos havail

theorem zip_find? (ledger : Ledger) (ownerId : Nat) (evaluation : RubricEvaluation) (now : Instant)
    {dimension : PreparedDimensionScore}
    (h : prepared.dimensions.find? (fun dimension => dimension.dimensionSlug = slug) =
      some dimension)
    :
    ∃ id, (dimension, id) ∈ prepared.dimensions.zipIdx ledger.dimensionScores.next ∧
      (prepared.dimensions.zip (insertedScores ledger ownerId evaluation prepared now).1).find?
          (fun pair => pair.1.dimensionSlug = slug) =
        some (dimension, newDimensionScore ownerId evaluation prepared now dimension id) := by
  rw [insertedScores, Serial.zip_insertAll]
  generalize ledger.dimensionScores.next = next
  generalize hmade : newDimensionScore ownerId evaluation prepared now = made
  clear hmade
  generalize prepared.dimensions = dimensions at h ⊢
  induction dimensions generalizing next with
  | nil => cases h
  | cons first rest ih =>
    rw [List.find?_cons] at h
    rw [List.zipIdx_cons, List.map_cons, List.find?_cons]
    by_cases hslug : first.dimensionSlug = slug
    · rw [decide_eq_true hslug] at h ⊢
      cases h
      exact ⟨next, List.mem_cons_self, rfl⟩
    · rw [decide_eq_false hslug] at h ⊢
      obtain ⟨id, hmem, hfind⟩ := ih (next + 1) h
      exact ⟨id, List.mem_cons_of_mem _ hmem, hfind⟩

structure RefersTo (ledger : Ledger) (ownerId : Nat) (evaluation : RubricEvaluation)
    (prepared : PreparedEvaluation) (now : Instant) (slug : String) (item : ScoreItem) :
    Prop where
  row : ∃ dimension, (dimension, item.dimensionScoreId) ∈
      prepared.dimensions.zipIdx ledger.dimensionScores.next ∧ dimension.dimensionSlug = slug ∧
    dimension.availability = .scored ∧ dimension.score = some item.score ∧
    dimension.weight = some item.weight
  item_ok : scoreItem prepared (insertedScores ledger ownerId evaluation prepared now).1 slug =
    .ok item

theorem scoreItem_accepts {evaluation : RubricEvaluation}
    (h : Prepares context command dimensions impacts events components)
    (hinput : scoreInput context command slug = .ok input) :
    ∃ item, RefersTo ledger ownerId evaluation
        (.of context command dimensions events components) now slug item ∧
      item.score = input.score ∧ item.weight = input.weight := by
  obtain ⟨dimension, hfind, havail, hscore, hwt⟩ := h.dimension hinput
  have hslug : dimension.dimensionSlug = slug := by simpa using List.find?_some hfind
  have hprepd : (PreparedEvaluation.of context command dimensions events
      components).dimensions.find? (fun dimension => dimension.dimensionSlug = slug) =
        some dimension := hfind
  obtain ⟨id, hmem, hzip⟩ := zip_find? ledger ownerId evaluation now hprepd
  refine ⟨⟨id, input.score, input.weight⟩, ⟨⟨dimension, hmem, hslug, havail, hscore, hwt⟩,
    ?_⟩, rfl, rfl⟩
  rw [scoreItem, hzip]
  simp only [hscore, hwt, newDimensionScore]

variable {inputs : List DimensionScoreInput}

theorem scoreItems_accepts {slugs : List String} {evaluation : RubricEvaluation}
    (h : Prepares context command dimensions impacts events components)
    (hinputs : List.Forall₂ (fun slug input => scoreInput context command slug = .ok input)
      slugs inputs)
    :
    ∃ items, List.Forall₂ (RefersTo ledger ownerId evaluation
        (.of context command dimensions events components) now) slugs items ∧
      ScoreItem.numerator items = weightedSum inputs ∧
      ScoreItem.denominator items = weightSum inputs := by
  induction hinputs with
  | nil => exact ⟨[], .nil, rfl, rfl⟩
  | cons hfst _ ih =>
    obtain ⟨item, hrefers, hscore, hwt⟩ := scoreItem_accepts h hfst
    obtain ⟨items, hitems, hnumerator, hdenominator⟩ := ih
    refine ⟨item :: items, .cons hrefers hitems, ?_, ?_⟩
    · rw [ScoreItem.numerator, weightedSum, List.map_cons, List.map_cons, List.sum_cons,
        List.sum_cons, hscore, hwt]
      exact congrArg _ hnumerator
    · rw [ScoreItem.denominator, weightSum, List.map_cons, List.map_cons, List.sum_cons,
        List.sum_cons, hwt]
      exact congrArg _ hdenominator

/-! ## Prepared events -/

theorem calculatePerformanceScore_ok {res : PerformanceScoreResult}
    (h : calculatePerformanceScore inputs = .ok res) :
    inputs ≠ [] ∧ 0 < weightSum inputs ∧
      res = ⟨quantize 3 (weightedSum inputs / weightSum inputs), weightedSum inputs,
        weightSum inputs⟩ ∧ 0 ≤ res.score ∧ res.score ≤ 4 := by
  simp only [calculatePerformanceScore, bind_ok_iff] at h
  obtain ⟨_, hne, _, -, _, hscale, h⟩ := h
  cases h
  rw [raiseFirst_eq_ok, List.forall_mem_singleton] at hne
  rw [raiseFirst_eq_ok, List.forall_mem_cons, List.forall_mem_singleton] at hscale
  obtain ⟨hsum, hscore⟩ := hscale
  simp only [decide_eq_false_iff_not, not_le, Bool.not_eq_false', decide_eq_true_eq] at hsum hscore
  refine ⟨?_, hsum, rfl, hscore.1, hscore.2⟩
  rintro rfl
  cases hne

def factorsOf (formula : FormulaConfig) (command : EvidenceEvaluationCommand) (impact : Rat) :
    EffectiveWeightFactors where
  skillImpact := impact
  practiceMode := if command.practiceMode = .pipelineOnly then 0
    else formula.practiceModeFactor command.practiceMode
  assistance := formula.assistanceFactor command.assistance
  evaluator := formula.evaluatorFactor command.evaluator
  difficulty := formula.difficultyFactor command.difficulty

def uncappedWeight (formula : FormulaConfig) (command : EvidenceEvaluationCommand)
    (impact : Rat) : Rat :=
  quantize 6 (factorsOf formula command impact).product

variable {formula : FormulaConfig}

theorem calculateEffectiveWeight_ok {imp : Rat} {res : EffectiveWeightResult}
    (h : calculateEffectiveWeight imp command.practiceMode command.assistance command.evaluator
      command.difficulty formula = .ok res)
    :
    res.factors = factorsOf formula command imp ∧
      res.rawWeight = uncappedWeight formula command imp ∧
      res.effectiveWeight = min (uncappedWeight formula command imp)
        formula.maximumEffectiveWeightPerEvent ∧ imp ≤ 1 := by
  unfold calculateEffectiveWeight at h
  split at h
  · cases h
  · rename_i hbd
    cases h
    refine ⟨rfl, rfl, ?_, (not_not.mp hbd).2⟩
    rw [formula.maximum_places.quantize_eq]
    rfl

structure Makes (context : EvaluationContext) (command : EvidenceEvaluationCommand)
    (impact : String × SkillImpactResult) (event : PreparedSkillEvent)
    (subset : SkillDimensionSubsetInput) (skill : PersistedSkill)
    (inputs : List DimensionScoreInput) : Prop where
  subset_mem : subset ∈ command.skillDimensionSubsets
  skill_mem : skill ∈ context.skills
  skill_slug : skill.slug = impact.1
  inputs_ok : List.Forall₂ (fun slug input => scoreInput context command slug = .ok input)
    subset.dimensionSlugs inputs
  performance : calculatePerformanceScore inputs = .ok event.performance
  weight : calculateEffectiveWeight impact.2.weight command.practiceMode command.assistance
    command.evaluator command.difficulty context.formula = .ok event.weight
  skill_id : event.skillId = skill.id
  slugs : event.dimensionSlugs = subset.dimensionSlugs
  qualifying : event.qualifyingForLevel =
    decide (qualifyEvidence (candidate context command) = .qualifies)
  reason : event.qualificationReason =
    qualificationReason (qualifyEvidence (candidate context command))
  discounts : event.discountCodes.length ≤ 16

variable {event : PreparedSkillEvent}

theorem prepareSkillEvent_ok {imp : String × SkillImpactResult}
    (h : prepareSkillEvent context command imp = .ok event) :
    ∃ subset skill inputs, Makes context command imp event subset skill inputs := by
  unfold prepareSkillEvent at h
  split at h
  · rename_i subset hsub
    split at h
    · rename_i skill hskill
      simp only [bind_ok_iff] at h
      obtain ⟨inputs, hinputs, performance, hperformance, weight, hwt, h⟩ := h
      cases h
      refine ⟨subset, skill, inputs, List.mem_of_find?_eq_some hsub,
        List.mem_of_find?_eq_some hskill, ?_, mapM_ok_iff.mp hinputs,
        mapError_ok_iff.mp hperformance, mapError_ok_iff.mp hwt, rfl, rfl, rfl, rfl, ?_⟩
      · simpa using List.find?_some hskill
      · show (if weight.capped then [DiscountCode.outlierCap] else []).length ≤ 16
        split
        · decide
        · decide
    · cases h
  · cases h

/-! ## Impacts -/

/-- The impact of a skill on the exercise, as `_applicable_impacts` lists it. -/
def Applies (context : EvaluationContext) (conditionsMet : List ConditionCode)
    (impact : String × SkillImpactResult) : Prop :=
  resolveSkillImpact context.exercise impact.1 conditionsMet context.selectedCompetency
    context.selectorCommittedInAttempt = .ok impact.2 ∧ 0 < impact.2.weight

theorem mem_setItem {β : Type} {items : List (String × β)} {key : String} {value : β}
    {item : String × β} (h : item ∈ setItem items key value) :
    item ∈ items ∨ item = (key, value) := by
  unfold setItem at h
  split at h
  · obtain ⟨other, ho, rfl⟩ := List.mem_map.mp h
    split
    · exact Or.inr rfl
    · exact Or.inl ho
  · rcases List.mem_append.mp h with hold | hnew
    · exact Or.inl hold
    · exact Or.inr (List.mem_singleton.mp hnew)

variable {conditionsMet : List ConditionCode}

theorem applicableImpacts_ok (h : applicableImpacts context conditionsMet = .ok impacts) :
    selectorInvalid context = false ∧ ∀ impact ∈ impacts, Applies context conditionsMet impact := by
  simp only [applicableImpacts, bind_ok_iff] at h
  obtain ⟨_, hsel, found, hf, _, -, h⟩ := h
  cases h
  rw [raiseFirst_eq_ok, List.forall_mem_singleton] at hsel
  refine ⟨hsel, ?_⟩
  refine foldlM_invariant (P := fun impacts => ∀ impact ∈ impacts, Applies context conditionsMet
    impact) hf (by simp) ?_
  intro before slug after hb hstep
  simp only [addImpact, bind_ok_iff] at hstep
  obtain ⟨resolved, hres, hstep⟩ := hstep
  rw [mapError_ok_iff] at hres
  cases hstep
  split
  · rename_i hpos
    intro impact himp
    rcases mem_setItem himp with hold | rfl
    · exact hb impact hold
    · exact ⟨hres, hpos⟩
  · exact hb

theorem Applies.source {imp : String × SkillImpactResult}
    (h : Applies context conditionsMet imp) :
    (∃ mapped ∈ context.exercise.impacts, mapped.skillSlug = imp.1 ∧
      mapped.weight = imp.2.weight) ∨
    (imp.1 ∈ context.exercise.allowedSelectedCompetencies ∧
      context.exercise.selectedImpact = some imp.2.weight) := by
  obtain ⟨hres, hpos⟩ := h
  have hmap : ∀ res, mappedImpact context.exercise imp.1 conditionsMet = res →
      0 < res.weight → ∃ mapped ∈ context.exercise.impacts, mapped.skillSlug = imp.1 ∧
        mapped.weight = res.weight := by
    intro res hresult hwt
    unfold mappedImpact at hresult
    split at hresult
    · rw [← hresult] at hwt
      exact absurd hwt (lt_irrefl 0)
    · rename_i mapped hfind
      split at hresult
      · rw [← hresult] at hwt
        exact absurd hwt (lt_irrefl 0)
      · rw [← hresult]
        refine ⟨mapped, List.mem_reverse.mp (List.mem_of_find?_eq_some hfind), ?_, rfl⟩
        simpa using List.find?_some hfind
  unfold resolveSkillImpact at hres
  split at hres
  · exact Or.inl (hmap imp.2 (Except.ok.inj hres) hpos)
  · rename_i selected hsel
    split at hres
    · cases hres
    · rename_i hok
      push Not at hok
      split at hres
      · rename_i hsame
        split at hres
        · cases hres
        · rename_i weight hwt
          right
          rw [hsame]
          refine ⟨hok.2.2, ?_⟩
          rw [hwt, ← Except.ok.inj hres]
      · exact Or.inl (hmap imp.2 (Except.ok.inj hres) hpos)

variable {config : ConfigSeedVersion} {bundle : ConfigBundle} {activity : ActivityInstance}
  {attempt : Attempt} {exercise : ExerciseTypeVersion}

theorem Loads.exercise_seeded
    (h : Loads lineage ledger ownerId command context config bundle activity attempt exercise)
    (hseed : Seeded ledger.seeds ownerId context.configSeedVersionId bundle) :
    SeededExercise ledger.seeds exercise context.exercise := by
  obtain ⟨hown, hcfg, hslug, -⟩ := h.exercise_keys
  obtain ⟨found, hf, hrow⟩ := hseed.exercises exercise h.exercise_mem hown
    (by rw [hcfg, h.config_id])
  have hmem := List.mem_of_find?_eq_some h.exercise_config
  have hname : context.exercise.slug = command.exerciseType := by
    simpa using List.find?_some h.exercise_config
  have hsame : found = context.exercise := by
    apply List.inj_on_of_nodup_map bundle.exercises_nodup hf hmem
    rw [hname, ← hslug, hrow.slug]
  rw [← hsame]
  exact hrow

variable {skill : PersistedSkill}

theorem Loads.mapsTo {imp : String × SkillImpactResult}
    (h : Loads lineage ledger ownerId command context config bundle activity attempt exercise)
    (hseed : Seeded ledger.seeds ownerId context.configSeedVersionId bundle)
    (himp : Applies context conditionsMet imp) (hskill : skill ∈ context.skills)
    (hslug : skill.slug = imp.1) :
    ∃ row ∈ ledger.seeds.competencies.rows, row.id = skill.id ∧
      ∃ condition, MapsTo ledger.seeds exercise row imp.2.weight condition := by
  obtain ⟨hown, hcfg, -, -⟩ := h.exercise_keys
  have hexer := h.exercise_seeded hseed
  rw [h.skills] at hskill
  obtain ⟨row, hrow, rfl⟩ := List.mem_map.mp hskill
  obtain ⟨hrows, hkeys⟩ := List.mem_filter.mp ((List.mem_insertionSort _).mp hrow)
  simp only [decide_eq_true_eq] at hkeys
  have hrowOwn : row.ownerId = exercise.ownerId := by rw [hkeys.1, hown]
  have hrowCfg : row.configSeedVersionId = exercise.configSeedVersionId := by
    rw [hkeys.2, hcfg]
  refine ⟨row, hrows, rfl, ?_⟩
  rcases himp.source with ⟨mapped, hmap, hmapSlug, hwt⟩ | ⟨hok, hwt⟩
  · have hmaps := hexer.mapped mapped hmap row hrows hrowOwn hrowCfg
      (hslug.trans hmapSlug.symm)
    rw [hwt] at hmaps
    exact ⟨mapped.condition, hmaps⟩
  · exact ⟨.reviewedDynamicImpact, hexer.selected _ hwt imp.1 hok row hrows
      hrowOwn hrowCfg hslug⟩

/-! ## The rows behind an event -/

/-- What `commit_output` promises: the task context of an attempt names the
exercise and the mapping of its task, unless the attempt is an Attempt B, whose
context is its parent's. -/
def Committed (lineage : Lineage) : Prop :=
  ∀ attempt ∈ lineage.attempts, attempt.attemptKind ≠ .attemptB →
    ∀ activity ∈ lineage.activities, activity.ownerId = attempt.ownerId →
    activity.id = attempt.activityInstanceId →
    ∃ task, lineage.definitions.find? (fun task => task.ownerId = activity.ownerId ∧
        task.roadmapVersionId = activity.roadmapVersionId ∧ task.id = activity.taskDefinitionId) =
        some task ∧
      ∀ taskContext output, attemptParts attempt.originalText = .ok (taskContext, output) →
        ∃ fields exerciseType mappingVersion, taskContext = .object fields ∧
          Json.get fields "exercise_type" = .string exerciseType ∧
          Json.get fields "mapping_version" = .string mappingVersion ∧
          task.exerciseType = some exerciseType ∧ task.mappingVersion = some mappingVersion

variable {attemptId : Nat}

theorem attemptRow?_some {activityId : Nat} {selfReview : SelfReview}
    (h : attemptRow? lineage ownerId activityId attemptId = some (activity, attempt, selfReview)) :
    lineage.activities.find? (fun activity => activity.ownerId = ownerId ∧
        activity.id = activityId) = some activity ∧
      lineage.attempts.find? (fun attempt => attempt.ownerId = ownerId ∧
        attempt.activityInstanceId = activityId ∧ attempt.id = attemptId) = some attempt := by
  simp only [attemptRow?, Option.bind_eq_bind, Option.bind_eq_some_iff] at h
  obtain ⟨foundActivity, hact, foundAttempt, hatt, foundReview, -, h⟩ := h
  cases h
  exact ⟨hact, hatt⟩

theorem checkTaskContext_object {fields : List (String × Json)} {exerciseType mappingVersion : String}
    (h : checkTaskContext (.object fields) command = .ok ())
    (hexer : Json.get fields "exercise_type" = .string exerciseType)
    (hmapg : Json.get fields "mapping_version" = .string mappingVersion) :
    exerciseType = command.exerciseType ∧ mappingVersion = command.mappingVersion := by
  rw [checkTaskContext, raiseFirst_eq_ok, List.forall_mem_singleton, hexer, hmapg] at h
  simpa using h

theorem Loads.eventLineage {imp : String × SkillImpactResult}
    (h : Loads lineage ledger ownerId command context config bundle activity attempt exercise)
    (target : SkillEvidenceEvent)
    (hseed : Seeded ledger.seeds ownerId context.configSeedVersionId bundle)
    (hcom : Committed lineage) (hkind : context.attemptKind ≠ .attemptB)
    (himp : Applies context conditionsMet imp) (hskill : skill ∈ context.skills)
    (hslug : skill.slug = imp.1) (hown : target.ownerId = ownerId)
    (hcfg : target.configSeedVersionId = context.configSeedVersionId)
    (hexer : target.exerciseTypeVersionId = context.exerciseTypeVersionId)
    (hact : target.activityInstanceId = command.activityId)
    (hcomp : target.competencyId = skill.id) :
    ∃ stored, eventLineage? lineage ledger.seeds target = some stored ∧
      stored.exercise = exercise ∧ stored.mapping.impact = imp.2.weight ∧
      stored.task.exerciseType = some exercise.exerciseType ∧
      stored.task.mappingVersion = some exercise.mappingVersion := by
  obtain ⟨hrowOwn, hrowCfg, hrowType, hrowMapg⟩ := h.exercise_keys
  have hexerFind : ledger.seeds.exerciseTypes.rows.find? (fun other =>
      other.ownerId = target.ownerId ∧ other.configSeedVersionId = target.configSeedVersionId ∧
        other.id = target.exerciseTypeVersionId) = some exercise := by
    apply hseed.exercises_keyed.find? h.exercise_mem
    · simp [hrowOwn, hrowCfg, hown, hcfg, hexer, h.exercise_id, h.config_id]
    · intro other ho
      simp only [decide_eq_true_eq] at ho
      rw [ho.2.2, hexer, h.exercise_id]
  obtain ⟨row, hrow, hrowId, condition, ⟨mapping, hmapg, hof⟩, hall⟩ :=
    h.mapsTo hseed himp hskill hslug
  have hmapgOf : ∀ other : ExerciseSkillMapping, other.Of exercise row ↔
      other.ownerId = target.ownerId ∧ other.configSeedVersionId = target.configSeedVersionId ∧
        other.exerciseTypeVersionId = exercise.id ∧ other.competencyId = target.competencyId := by
    intro other
    rw [ExerciseSkillMapping.Of, hrowOwn, hrowCfg, hown, hcfg, h.config_id, hcomp,
      hrowId]
  obtain ⟨found, hf⟩ : ∃ found, ledger.seeds.mappings.rows.find? (fun other =>
      other.ownerId = target.ownerId ∧ other.configSeedVersionId = target.configSeedVersionId ∧
        other.exerciseTypeVersionId = exercise.id ∧ other.competencyId = target.competencyId) =
        some found := by
    rw [← Option.isSome_iff_exists, List.find?_isSome]
    exact ⟨mapping, hmapg, decide_eq_true ((hmapgOf mapping).mp hof)⟩
  have hfoundOf : found.Of exercise row := by
    rw [hmapgOf]
    simpa using List.find?_some hf
  obtain ⟨selfReview, hattRow⟩ := h.row
  obtain ⟨hactFind, hattFind⟩ := attemptRow?_some hattRow
  have hactKeys := List.find?_some hactFind
  have hattKeys := List.find?_some hattFind
  simp only [decide_eq_true_eq] at hactKeys hattKeys
  obtain ⟨task, htask, hparts⟩ := hcom attempt (List.mem_of_find?_eq_some hattFind)
    (by rw [← h.attempt_kind]; exact hkind) activity (List.mem_of_find?_eq_some hactFind)
    (by rw [hactKeys.1, hattKeys.1]) (by rw [hactKeys.2, hattKeys.2.1])
  obtain ⟨taskContext, output, hok, hchecked⟩ := h.task
  obtain ⟨fields, exerciseType, mappingVersion, rfl, hjsonType, hjsonMapg, htaskType,
    htaskMapg⟩ := hparts taskContext output hok
  obtain ⟨rfl, rfl⟩ := checkTaskContext_object hchecked hjsonType hjsonMapg
  refine ⟨⟨exercise, found, task⟩, ?_, rfl, (hall found (List.mem_of_find?_eq_some hf)
    hfoundOf).1, ?_, ?_⟩
  · rw [eventLineage?, hexerFind]
    simp only [Option.bind_eq_bind, Option.bind_some, hf]
    rw [hown, hact, hactFind]
    simp only [Option.bind_some, htask]
    rfl
  · rw [htaskType, hrowType]
  · rw [htaskMapg, hrowMapg]

/-! ## The ledger after the evaluation and its dimensions -/

structure Saved (ledger : Ledger) (ownerId : Nat) (prepared : PreparedEvaluation) (now : Instant)
    (evaluation : RubricEvaluation) (after : Ledger) : Prop where
  seeds : after.seeds = ledger.seeds
  evaluations : after.evaluations.Keyed RubricEvaluation.id
  evaluation_mem : evaluation ∈ after.evaluations.rows
  owner : evaluation.ownerId = ownerId
  config : evaluation.configSeedVersionId = prepared.configSeedVersionId
  activity : evaluation.activityInstanceId = prepared.activityId
  attempt : evaluation.attemptId = some prepared.attemptId
  rubric : evaluation.rubricVersionId = prepared.rubricVersionId
  evaluator : evaluation.evaluatorKind = prepared.evaluator
  scores : after.dimensionScores = (insertedScores ledger ownerId evaluation prepared now).2
  scores_keyed : after.dimensionScores.Keyed RubricDimensionScore.id

variable {after : Ledger}

theorem saved_of_saves {evaluation : RubricEvaluation} {middle : Ledger}
    {scs : List RubricDimensionScore} (hsound : Sound lineage ledger)
    (heval : saveEvaluation ledger ownerId prepared now = .ok (evaluation, middle))
    (hscores : saveDimensionScores middle ownerId evaluation prepared now = .ok (scs, after)) :
    Saved ledger ownerId prepared now evaluation after ∧
      scs = (insertedScores ledger ownerId evaluation prepared now).1 := by
  obtain ⟨rfl, rfl⟩ := saveDimensionScores_rows hscores
  simp only [saveEvaluation, bind_ok_iff] at heval
  obtain ⟨_, -, heval⟩ := heval
  cases heval
  refine ⟨⟨rfl, ?_, ?_, rfl, rfl, rfl, rfl, rfl, rfl, rfl, ?_⟩, rfl⟩
  · exact hsound.evaluations.append rfl
  · exact List.mem_append_right _ (List.mem_singleton_self _)
  · refine hsound.dimensionScores.insertAll ?_
    intro make hmake id
    obtain ⟨dimension, -, rfl⟩ := List.mem_map.mp hmake
    rfl

theorem Saved.storedEvaluator {evaluation : RubricEvaluation} {item : PreparedSkillEvent}
    {scs : List ScoreItem} (h : Saved ledger ownerId prepared now evaluation after) :
    storedEvaluator? after (newSkillEvent ownerId evaluation prepared now item scs 0) =
      some prepared.evaluator := by
  have hfind : after.evaluations.rows.find? (fun other => other.ownerId = ownerId ∧
      other.configSeedVersionId = prepared.configSeedVersionId ∧
      other.activityInstanceId = prepared.activityId ∧
      other.attemptId = some prepared.attemptId ∧
      other.rubricVersionId = prepared.rubricVersionId ∧ other.id = evaluation.id) =
        some evaluation := by
    apply h.evaluations.find? h.evaluation_mem
    · simp [h.owner, h.config, h.activity, h.attempt, h.rubric]
    · intro other ho
      simp only [decide_eq_true_eq] at ho
      exact ho.2.2.2.2.2
  calc storedEvaluator? after (newSkillEvent ownerId evaluation prepared now item scs 0)
      = (some evaluation).map RubricEvaluation.evaluatorKind := congrArg _ hfind
    _ = some prepared.evaluator := by rw [Option.map_some, h.evaluator]

theorem Saved.storedScore {evaluation : RubricEvaluation} {scs : List ScoreItem}
    {item : ScoreItem} (h : Saved ledger ownerId prepared now evaluation after)
    (hitem : RefersTo ledger ownerId evaluation prepared now slug item) :
    storedScoreMatches after (newSkillEvent ownerId evaluation prepared now event scs 0) item =
      true := by
  obtain ⟨dimension, hmem, -, havail, hscore, hwt⟩ := hitem.row
  let row := newDimensionScore ownerId evaluation prepared now dimension item.dimensionScoreId
  have hrow : row ∈ after.dimensionScores.rows := by
    rw [h.scores]
    show row ∈ (insertedScores ledger ownerId evaluation prepared now).2.rows
    rw [insertedScores, Serial.insertAll_rows, Serial.insertAll_eq, List.mem_append]
    right
    refine List.mem_map.mpr ⟨(newDimensionScore ownerId evaluation prepared now dimension,
      item.dimensionScoreId), ?_, rfl⟩
    rw [List.zipIdx_map]
    exact List.mem_map.mpr ⟨(dimension, item.dimensionScoreId), hmem, rfl⟩
  have hfind : storedDimension? after (newSkillEvent ownerId evaluation prepared now event scs 0)
      item = some row := by
    apply h.scores_keyed.find? hrow
    · simp [row, newSkillEvent, newDimensionScore, havail]
    · intro other ho
      simp only [decide_eq_true_eq] at ho
      exact ho.2.2.2.2.1
  rw [storedScoreMatches, hfind]
  simp [row, newDimensionScore, hscore, hwt]

/-! ## The row alone -/

section Row

variable {evaluation : RubricEvaluation} {slugs : List String} {items : List ScoreItem}

theorem nodup_of_refersTo
    (h : List.Forall₂ (RefersTo ledger ownerId evaluation prepared now) slugs items)
    (hslugs : slugs.Nodup) : (items.map ScoreItem.dimensionScoreId).Nodup := by
  induction h with
  | nil => exact List.nodup_nil
  | @cons slug item slugs items hfst hrest ih =>
    rw [List.nodup_cons] at hslugs
    rw [List.map_cons, List.nodup_cons]
    refine ⟨?_, ih hslugs.2⟩
    intro hmem
    obtain ⟨other, ho, hsame⟩ := List.mem_map.mp hmem
    obtain ⟨name, hname, hrefers⟩ := forall₂_mem_right hrest ho
    obtain ⟨left, hleft, hleftSlug, -⟩ := hfst.row
    obtain ⟨right, hright, hrightSlug, -⟩ := hrefers.row
    rw [List.mk_mem_zipIdx_iff_le_and_getElem?_sub] at hleft hright
    rw [hsame] at hright
    have heq : left = right := Option.some.inj (hleft.2.symm.trans hright.2)
    rw [← hleftSlug, heq, hrightSlug] at hslugs
    exact hslugs.1 hname

theorem RefersTo.bounds {item : ScoreItem}
    (h : RefersTo ledger ownerId evaluation prepared now slug item)
    (hpos : 0 < ledger.dimensionScores.next)
    (hstorb : ∀ dimension ∈ prepared.dimensions,
      (newDimensionScore ownerId evaluation prepared now dimension 0).storable = true)
    :
    0 < item.dimensionScoreId ∧ (0 ≤ item.score ∧ item.score ≤ 20) ∧
      0 < item.weight ∧ item.weight ≤ 1 := by
  obtain ⟨dimension, hmem, -, havail, hscore, hwt⟩ := h.row
  rw [List.mk_mem_zipIdx_iff_le_and_getElem?_sub] at hmem
  have hrow := hstorb dimension (List.mem_of_getElem? hmem.2)
  simp only [RubricDimensionScore.storable, newDimensionScore, havail, if_true, hscore, hwt,
    Option.any_some, Bool.and_eq_true, decide_eq_true_eq] at hrow
  exact ⟨by omega, hrow.1, hrow.2⟩

theorem manifests_accepted
    (h : List.Forall₂ (RefersTo ledger ownerId evaluation prepared now) slugs items)
    (hne : slugs ≠ []) (hlength : slugs.length ≤ 64) (hpos : 0 < ledger.dimensionScores.next)
    (hstorb : ∀ dimension ∈ prepared.dimensions,
      (newDimensionScore ownerId evaluation prepared now dimension 0).storable = true)
    (hdiscounts : event.discountCodes.length ≤ 16) :
    scoreManifestValid items = true ∧
      (newSkillEvent ownerId evaluation prepared now event items 0).explanation.valid = true := by
  have hlen := h.length_eq
  have hbd : ∀ item ∈ items, 0 < item.dimensionScoreId ∧ (0 ≤ item.score ∧ item.score ≤ 20) ∧
      0 < item.weight ∧ item.weight ≤ 1 := by
    intro item hitem
    obtain ⟨slug, -, hrefers⟩ := forall₂_mem_right h hitem
    exact hrefers.bounds hpos hstorb
  have hpositive : 1 ≤ slugs.length := List.length_pos_iff.mpr hne
  constructor
  · simp only [scoreManifestValid, Bool.and_eq_true, List.all_eq_true, decide_eq_true_eq]
    refine ⟨⟨by omega, by omega⟩, ?_⟩
    intro item hitem
    obtain ⟨hid, hscore, hwt⟩ := hbd item hitem
    exact ⟨⟨hid, hscore⟩, hwt⟩
  · simp only [newSkillEvent, Explanation.valid, Bool.and_eq_true, List.all_eq_true,
      decide_eq_true_eq, List.length_map, List.mem_map]
    refine ⟨⟨by omega, ?_⟩, decide_eq_true hdiscounts⟩
    rintro id ⟨item, hitem, rfl⟩
    exact (hbd item hitem).1

end Row

theorem qualifyEvidence_cases (command : EvidenceEvaluationCommand)
    (hkind : context.attemptKind ≠ .attemptB) :
    let code := qualifyEvidence (candidate context command)
    (command.practiceMode ∉ qualifyingModes ∧ code = .nonqualifyingMode) ∨
    (command.practiceMode ∈ qualifyingModes ∧ command.assistance ∉ qualifyingAssistanceCodes ∧
      code = .nonqualifyingAssistance) ∨
    (command.practiceMode ∈ qualifyingModes ∧ command.assistance ∈ qualifyingAssistanceCodes ∧
      ((code = .qualifies ∧ (command.practiceMode = .independentPractice →
          context.attemptKind = .attemptA)) ∨
        (code ≠ .qualifies ∧ qualificationReason code = .excludedByFormula))) := by
  intro code
  have hcode : qualifyEvidence (candidate context command) = code := rfl
  clear_value code
  unfold qualifyEvidence at hcode
  split at hcode
  · rename_i hscored
    cases hscored
  · split at hcode
    · rename_i hmode
      exact Or.inl ⟨hmode, hcode.symm⟩
    · rename_i hmode
      right
      split at hcode
      · rename_i hassistance
        exact Or.inl ⟨not_not.mp hmode, hassistance, hcode.symm⟩
      · rename_i hassistance
        right
        refine ⟨not_not.mp hmode, not_not.mp hassistance, ?_⟩
        split at hcode
        · rename_i hsec
          exact absurd hsec hkind
        · split at hcode
          · subst hcode
            exact Or.inr ⟨by decide, rfl⟩
          · rename_i hindependent
            have hfst : command.practiceMode = .independentPractice →
                context.attemptKind = .attemptA := by
              intro hpractice
              by_contra ho
              exact hindependent ⟨hpractice, ho⟩
            split at hcode
            · exact Or.inl ⟨hcode.symm, hfst⟩
            · split at hcode
              · subst hcode
                exact Or.inr ⟨by decide, rfl⟩
              · split at hcode
                · subst hcode
                  exact Or.inr ⟨by decide, rfl⟩
                · exact Or.inl ⟨hcode.symm, hfst⟩

variable {target : SkillEvidenceEvent}

/-- The reason of an event is the only one its columns allow. -/
theorem qualification_accepted {cond : ConditionCode} (hkind : context.attemptKind ≠ .attemptB)
    (hatt : target.attemptId = some attemptId)
    (hmode : target.practiceMode = command.practiceMode)
    (hassistance : target.assistanceCode = command.assistance)
    (hqual : target.qualifyingForLevel =
      decide (qualifyEvidence (candidate context command) = .qualifies))
    (hwhy : target.qualificationReasonCode =
      qualificationReason (qualifyEvidence (candidate context command)))
    : validateQualificationReason target (some context.attemptKind) cond = .ok () := by
  have hexpd : validateQualificationReason target (some context.attemptKind) cond =
      raiseFirst [
        (target.qualificationReasonCode != expectedReason target context.attemptKind cond ||
            target.qualifyingForLevel !=
              (expectedReason target context.attemptKind cond == .qualifies),
          ⟨"qualification reason does not match stored evidence"⟩),
        (expectedReason target context.attemptKind cond == .qualifies &&
            target.practiceMode == .independentPractice &&
            some context.attemptKind != some .attemptA,
          ⟨"qualifying independent practice requires committed Attempt A"⟩)] := by
    unfold validateQualificationReason
    simp only [hatt]
    rfl
  rw [hexpd, expectedReason, if_neg hkind, hmode, hassistance]
  rcases qualifyEvidence_cases command hkind with ⟨hin, hcode⟩ | ⟨hin, hout, hcode⟩ |
    ⟨hin, hout, ⟨hcode, hindependent⟩ | ⟨hcode, hexcl⟩⟩
  · rw [hcode] at hqual hwhy
    simp [hin, hqual, hwhy, qualificationReason, raiseFirst]
  · rw [hcode] at hqual hwhy
    simp [hin, hout, hqual, hwhy, qualificationReason, raiseFirst]
  · rw [hcode] at hqual hwhy
    simp only [hin, hout, hqual, hwhy, qualificationReason]
    by_cases hpractice : command.practiceMode = .independentPractice
    · simp [hpractice, hindependent hpractice, raiseFirst]
    · simp [hpractice, raiseFirst]
  · rw [hexcl] at hwhy
    rw [decide_eq_false hcode] at hqual
    simp [hin, hout, hqual, hwhy, raiseFirst]

/-! ## Acceptance -/

theorem Prepares.practiceMode (h : Prepares context command dimensions impacts events components) :
    command.practiceMode = context.exercise.evidenceMode := by
  have hcheck := raiseFirst_eq_ok.mp h.lineage_ok
    (command.practiceMode != context.exercise.evidenceMode,
      .conflict "practice mode does not match the exercise mapping") (by simp [lineageChecks])
  exact bne_eq_false_iff_eq.mp hcheck

theorem subset_of_checkCommand (h : checkCommand command = true) :
    ∀ subset ∈ command.skillDimensionSubsets, subset.dimensionSlugs.length ≤ 64 ∧
      subset.dimensionSlugs.Nodup := by
  simp only [checkCommand, Bool.and_eq_true, List.all_eq_true] at h
  intro subset hsub
  have hval := h.1.1.1.2 subset hsub
  simp only [SkillDimensionSubsetInput.valid, Bool.and_eq_true, decide_eq_true_eq] at hval
  exact ⟨hval.1.2, hval.2⟩

theorem reproducibleChecks_iff {performance : PerformanceScoreResult} {imp : Rat}
    (hperformance : calculatePerformanceScore inputs = .ok performance)
    (hnd : (target.rawDimensionScores.map ScoreItem.dimensionScoreId).Nodup)
    (hnumerator : ScoreItem.numerator target.rawDimensionScores = weightedSum inputs)
    (hdenominator : ScoreItem.denominator target.rawDimensionScores = weightSum inputs)
    (hscore : target.rawScoreNumerator = performance.weightedSum ∧
      target.rawScoreDenominator = performance.weightSum ∧
      target.performanceScore = performance.score)
    (hexpd : target.expectedWeight = uncappedWeight formula command imp)
    (heffective : target.effectiveWeight = min (uncappedWeight formula command imp)
      formula.maximumEffectiveWeightPerEvent)
    :
    raiseFirst (reproducibleChecks target) = .ok () ↔
      uncappedWeight formula command imp ≤ formula.maximumEffectiveWeightPerEvent := by
  obtain ⟨-, hsum, rfl, -, -⟩ := calculatePerformanceScore_ok hperformance
  obtain ⟨hsumEq, hwtEq, hperformanceEq⟩ := hscore
  rw [raiseFirst_eq_ok, reproducibleChecks]
  simp only [List.forall_mem_cons, List.not_mem_nil, false_implies, implies_true, and_true,
    hnd, hsumEq, hwtEq, hperformanceEq, hnumerator, hdenominator, heffective, hexpd,
    bne_self_eq_false, Bool.or_false, decide_true, Bool.not_true, true_and, bne_eq_false_iff_eq,
    beq_eq_false_iff_ne, ne_eq, hsum.ne', not_false_eq_true, min_eq_left_iff]

/-- The row of a prepared event: its terms refer to the rows of the dimensions,
and its manifests are well formed. -/
theorem event_items {impact : String × SkillImpactResult} (evaluation : RubricEvaluation)
    (now : Instant) (hsound : Sound lineage ledger) (hcmd : checkCommand command = true)
    (hload : loadContext lineage ledger ownerId command = .ok context)
    (hpreps : Prepares context command dimensions impacts events components)
    (hev : prepareSkillEvent context command impact = .ok event) :
    let made := PreparedEvaluation.of context command dimensions events components
    ∃ subset skill inputs items, Makes context command impact event subset skill inputs ∧
      List.Forall₂ (RefersTo ledger ownerId evaluation made now) subset.dimensionSlugs items ∧
      ScoreItem.numerator items = weightedSum inputs ∧
      ScoreItem.denominator items = weightSum inputs ∧
      event.dimensionSlugs.mapM
        (scoreItem made (insertedScores ledger ownerId evaluation made now).1) = .ok items ∧
      structuredPayload (scoreManifestValid items &&
        (newSkillEvent ownerId evaluation made now event items 0).explanation.valid) = .ok () := by
  intro made
  obtain ⟨config, bundle, activity, attempt, exercise, hloads⟩ := loadContext_ok hload
  have hseed := hloads.seeded hsound
  obtain ⟨subset, skill, inputs, hmakes⟩ := prepareSkillEvent_ok hev
  obtain ⟨hlen, -⟩ := subset_of_checkCommand hcmd subset hmakes.subset_mem
  obtain ⟨hne, -, -, -, -⟩ := calculatePerformanceScore_ok hmakes.performance
  obtain ⟨items, hitems, hnumerator, hdenominator⟩ : ∃ items, List.Forall₂
      (RefersTo ledger ownerId evaluation made now) subset.dimensionSlugs items ∧
        ScoreItem.numerator items = weightedSum inputs ∧
        ScoreItem.denominator items = weightSum inputs :=
    scoreItems_accepts hpreps hmakes.inputs_ok
  have hstorb : ∀ dimension ∈ made.dimensions,
      (newDimensionScore ownerId evaluation made now dimension 0).storable = true := by
    intro dimension hdim
    obtain ⟨persisted, hmem, hok⟩ := mapM_ok_mem hpreps.dimensions_ok hdim
    exact (newDimensionScore_accepted hloads hseed hcmd rfl rfl hmem hok rfl).2
  have hslugs : subset.dimensionSlugs ≠ [] := by
    intro hnil
    have hinputs := hmakes.inputs_ok
    rw [hnil, List.forall₂_nil_left_iff] at hinputs
    exact hne hinputs
  obtain ⟨hmani, hexplanation⟩ := manifests_accepted hitems hslugs hlen
    hsound.dimensionScores.next_pos hstorb hmakes.discounts
  refine ⟨subset, skill, inputs, items, hmakes, hitems, hnumerator, hdenominator, ?_, ?_⟩
  · rw [hmakes.slugs]
    exact mapM_ok_iff.mpr (hitems.imp fun _ _ hrefers => hrefers.item_ok)
  · rw [hmani, hexplanation]
    rfl

/-- The row passes everything but the check of its weight, and that one exactly
when the weight was not capped. -/
theorem event_accepted_iff {imp : String × SkillImpactResult} {evaluation : RubricEvaluation}
    (hsound : Sound lineage ledger) (hcom : Committed lineage)
    (hcmd : checkCommand command = true)
    (hload : loadContext lineage ledger ownerId command = .ok context)
    (hpreps : Prepares context command dimensions impacts events components)
    (hsaved : Saved ledger ownerId (.of context command dimensions events components) now
      evaluation after)
    (himp : imp ∈ expectedImpacts context impacts)
    (hev : prepareSkillEvent context command imp = .ok event) :
    let made := PreparedEvaluation.of context command dimensions events components
    ∃ items, event.dimensionSlugs.mapM
        (scoreItem made (insertedScores ledger ownerId evaluation made now).1) = .ok items ∧
      (validateSkillEvidenceEvent lineage after
          (newSkillEvent ownerId evaluation made now event items 0) = .ok () ↔
        uncappedWeight context.formula command imp.2.weight ≤
          context.formula.maximumEffectiveWeightPerEvent) := by
  intro made
  obtain ⟨config, bundle, activity, attempt, exercise, hloads⟩ := loadContext_ok hload
  have hseed := hloads.seeded hsound
  have hkind : context.attemptKind ≠ .attemptB := by
    intro hkind
    rw [expectedImpacts, if_pos hkind] at himp
    cases himp
  rw [expectedImpacts, if_neg hkind] at himp
  have happlies := (applicableImpacts_ok hpreps.impacts_ok).2 imp himp
  obtain ⟨subset, skill, inputs, items, hmakes, hitems, hnumerator, hdenominator, hscores,
    hstructured⟩ := event_items evaluation now hsound hcmd hload hpreps hev
  have hnd := (subset_of_checkCommand hcmd subset hmakes.subset_mem).2
  obtain ⟨hfactors, -, heffective, -⟩ := calculateEffectiveWeight_ok hmakes.weight
  refine ⟨items, hscores, ?_⟩
  let target := newSkillEvent ownerId evaluation made now event items 0
  have hreproducible : raiseFirst (reproducibleChecks target) = .ok () ↔ _ :=
    reproducibleChecks_iff hmakes.performance (nodup_of_refersTo hitems hnd) hnumerator
      hdenominator ⟨rfl, rfl, rfl⟩ (by
        show quantize 6 event.weight.factors.product = _
        rw [hfactors]
        rfl) heffective
  obtain ⟨stored, hsto, hstoExer, hstoImp, hstoType, hstoMapg⟩ :=
    hloads.eventLineage target hseed hcom hkind happlies hmakes.skill_mem
      hmakes.skill_slug rfl rfl rfl hpreps.ids.1 hmakes.skill_id
  rw [← hsaved.seeds] at hsto
  have hexer := hloads.exercise_seeded hseed
  have hprov : raiseFirst (provenanceChecks after target stored) = .ok () := by
    have hall : target.rawDimensionScores.all (storedScoreMatches after target) = true := by
      rw [List.all_eq_true]
      intro item hitem
      obtain ⟨slug, -, hrefers⟩ := forall₂_mem_right hitems hitem
      exact hsaved.storedScore hrefers
    have hevaluator : storedEvaluator? after target = some target.evaluatorKind :=
      hsaved.storedEvaluator
    have hmode : target.practiceMode = stored.exercise.evidenceMode := by
      rw [hstoExer, hexer.mode]
      rfl
    have hmap : target.exerciseSkillImpact = stored.mapping.impact := by
      rw [hstoImp]
      show event.weight.factors.skillImpact = _
      rw [hfactors]
      rfl
    rw [raiseFirst_eq_ok, provenanceChecks]
    simp [hall, hevaluator, hmode, hmap, hstoType, hstoMapg, hstoExer]
  have hatt : attemptKind? lineage target = some context.attemptKind := by
    obtain ⟨selfReview, hrow⟩ := hloads.row
    have hfind := (attemptRow?_some hrow).2
    rw [← hpreps.ids.1, ← hpreps.ids.2] at hfind
    calc attemptKind? lineage target
        = (lineage.attempts.find? fun attempt => attempt.ownerId = ownerId ∧
            attempt.activityInstanceId = context.activityId ∧
            attempt.id = context.attemptId).bind fun attempt => some attempt.attemptKind := rfl
      _ = some context.attemptKind := by rw [hfind, Option.bind_some, hloads.attempt_kind]
  have hwhy : validateQualificationReason target (attemptKind? lineage target)
      stored.mapping.conditionCode = .ok () := by
    rw [hatt]
    exact qualification_accepted hkind rfl hpreps.practiceMode.symm rfl hmakes.qualifying
      hmakes.reason
  rw [← hreproducible]
  constructor
  · intro h
    obtain ⟨_, -, h⟩ := bind_ok_iff.mp h
    obtain ⟨_, hchk, -⟩ := bind_ok_iff.mp h
    exact hchk
  · intro hchk
    refine bind_ok_iff.mpr ⟨_, hstructured, bind_ok_iff.mpr ⟨_, hchk, ?_⟩⟩
    have hsome : eventLineage? lineage after.seeds
        (newSkillEvent ownerId evaluation made now event items 0) = some stored := hsto
    rw [hsome]
    exact bind_ok_iff.mpr ⟨_, hprov, hwhy⟩

def WithinCap (context : EvaluationContext) (command : EvidenceEvaluationCommand) : Prop :=
  ∀ impacts, applicableImpacts context (conditions context command) = .ok impacts →
    ∀ impact ∈ expectedImpacts context impacts,
      uncappedWeight context.formula command impact.2.weight ≤
        context.formula.maximumEffectiveWeightPerEvent

theorem forall_mem_iff_of_forall₂ {α β : Type} {p : α → Prop} {q : β → Prop} {xs : List α}
    {ys : List β} (h : List.Forall₂ (fun x y => q y ↔ p x) xs ys) :
    (∀ y ∈ ys, q y) ↔ ∀ x ∈ xs, p x := by
  induction h with
  | nil => simp
  | cons hfst _ ih => rw [List.forall_mem_cons, List.forall_mem_cons, hfst, ih]

theorem pendingSkillEvents {evaluation : RubricEvaluation} (hsound : Sound lineage ledger)
    (hcom : Committed lineage) (hcmd : checkCommand command = true)
    (hload : loadContext lineage ledger ownerId command = .ok context)
    (hpreps : Prepares context command dimensions impacts events components)
    (hsaved : Saved ledger ownerId (.of context command dimensions events components) now
      evaluation after)
    : let made := PreparedEvaluation.of context command dimensions events components
    ∃ pending, events.mapM (pendingSkillEvent ownerId evaluation
        (insertedScores ledger ownerId evaluation made now).1 made now) = .ok pending ∧
      List.Forall₂ (fun imp row => validateSkillEvidenceEvent lineage after (row 0) = .ok () ↔
        uncappedWeight context.formula command imp.2.weight ≤
          context.formula.maximumEffectiveWeightPerEvent)
        (expectedImpacts context impacts) pending := by
  intro made
  have hevs := mapM_ok_iff.mp hpreps.events_ok
  have hall : ∀ imp ∈ expectedImpacts context impacts, imp ∈ expectedImpacts context impacts :=
    fun _ himp => himp
  simp only [mapM_ok_iff]
  -- Along the impacts and their events: each event has its row.
  suffices hsuffix : ∀ expected made', List.Forall₂ (fun imp event =>
      prepareSkillEvent context command imp = .ok event) expected made' →
      (∀ imp ∈ expected, imp ∈ expectedImpacts context impacts) →
      ∃ pending, List.Forall₂ (fun event row => pendingSkillEvent ownerId evaluation
          (insertedScores ledger ownerId evaluation made now).1 made now event = .ok row)
          made' pending ∧
        List.Forall₂ (fun imp row =>
          validateSkillEvidenceEvent lineage after (row 0) = .ok () ↔
            uncappedWeight context.formula command imp.2.weight ≤
              context.formula.maximumEffectiveWeightPerEvent) expected pending from
    hsuffix _ _ hevs hall
  intro expected made' hpairs
  induction hpairs with
  | nil => exact fun _ => ⟨[], .nil, .nil⟩
  | @cons imp event expected made' hev _ ih =>
    intro hmem
    obtain ⟨pending, hrows, hacc⟩ := ih fun other ho =>
      hmem other (List.mem_cons_of_mem _ ho)
    obtain ⟨items, hitems, hiff⟩ := event_accepted_iff hsound hcom hcmd hload hpreps
      hsaved (hmem imp (by simp)) hev
    refine ⟨newSkillEvent ownerId evaluation made now event items :: pending, .cons ?_ hrows,
      .cons hiff hacc⟩
    exact bind_ok_iff.mpr ⟨items, hitems, rfl⟩

/-- Every event of an evaluation is built, and the ledger model accepts them
all exactly when none of them was capped. -/
theorem skill_events_accepted_iff (hsound : Sound lineage ledger) (hcommitted : Committed lineage)
    (hcommand : checkCommand command = true)
    (hload : loadContext lineage ledger ownerId command = .ok context)
    (hprepare : prepareEvaluation context command = .ok prepared) (now : Instant) :
    ∃ evaluation middle scores after pending,
      saveEvaluation ledger ownerId prepared now = .ok (evaluation, middle) ∧
      saveDimensionScores middle ownerId evaluation prepared now = .ok (scores, after) ∧
      prepared.skillEvents.mapM (pendingSkillEvent ownerId evaluation scores prepared now) =
        .ok pending ∧
      ((∀ row ∈ pending, validateSkillEvidenceEvent lineage after (row 0) = .ok ()) ↔
        WithinCap context command) := by
  obtain ⟨evaluation, middle, hevaluation⟩ := saveEvaluation_accepts ledger ownerId now hcommand
    hprepare
  have hseeds : middle.seeds = ledger.seeds := by
    obtain ⟨-, -, -, rfl⟩ := saveEvaluation_ok hevaluation
    rfl
  obtain ⟨scores, after, hscores⟩ := saveDimensionScores_accepts evaluation now hsound hcommand
    hload hprepare hseeds
  obtain ⟨hsaved, rfl⟩ := saved_of_saves hsound hevaluation hscores
  obtain ⟨dimensions, impacts, events, components, hprepares, rfl⟩ := prepareEvaluation_ok hprepare
  obtain ⟨pending, hpending, hpairs⟩ := pendingSkillEvents hsound hcommitted hcommand hload hprepares
    hsaved
  refine ⟨evaluation, middle, _, after, pending, hevaluation, hscores, hpending, ?_⟩
  rw [forall_mem_iff_of_forall₂ hpairs]
  constructor
  · intro hall found hfound impact himpact
    rw [hprepares.impacts_ok] at hfound
    cases hfound
    exact hall impact himpact
  · intro hwithin
    exact hwithin impacts hprepares.impacts_ok

/-! ## A sample evaluation -/

/-- A committed timed assessment of owner `1` under a configuration. -/
def sampleLineage (bundle : ConfigBundle) : Lineage where
  owners := [1]
  configs := [⟨1, 1, "release-1", .ok bundle⟩]
  definitions := [⟨1, 1, 1, "w01-d6-block", some "sql_no_ai_timed_assessment", some "seed-v1"⟩]
  activities := [{
    id := 7
    ownerId := 1
    studyDayId := 1
    roadmapVersionId := 1
    taskDefinitionId := 1
    state := .selfReviewComplete
    attemptKind := some .noAiAssessment
    classification := .required
    sourceHidden := false
    optimisticVersion := 4
    strongerEvidenceActivityId := none
    startedAt := some 0
    outputCommittedAt := some 5
    completedAt := none
    id_pos := id_seven_pos
    id_le := seven_le_bigintMax }]
  attempts := [{
    id := 3
    ownerId := 1
    activityInstanceId := 7
    attemptKind := .noAiAssessment
    originalText := some (.document (.object [
      ("task_context", .object [("exercise_type", .string "sql_no_ai_timed_assessment"),
        ("mapping_version", .string "seed-v1")]),
      ("output", .object [("sql", .string "SELECT 1;")])]))
    originalMarkdown := none
    originalSql := some "SELECT 1;"
    prompt := "Reconcile the ledger."
    assistanceMode := .none
    committedAt := 5
    id_pos := id_three_pos
    id_le := three_le_bigintMax }]
  selfReviews := [⟨2, 1, 7, 3, 3, 8, three_le_four⟩]

def sampleLedger (bundle : ConfigBundle) : Ledger where
  seeds := seedConfig 1 1 bundle Seeds.empty
  artifacts := []
  artifactLinks := []
  evaluations := .empty
  dimensionScores := .empty
  events := .empty
  snapshots := .empty
  portfolioScores := .empty
  receipts := []

/-- The reviewer scores every dimension of the block rubric with a three. -/
def sampleEvaluation (evaluatedAt : Instant) : EvidenceEvaluationCommand where
  activityId := 7
  attemptId := 3
  configVersionKey := "release-1"
  exerciseType := "sql_no_ai_timed_assessment"
  mappingVersion := "seed-v1"
  formulaVersion := "seed-v1"
  rubricSlug := "tam_block"
  rubricVersion := "seed-v1"
  practiceMode := .timedAssessment
  assistance := .aiAfterCommittedAttempt
  evaluator := .aiRubricReviewer
  difficulty := .standard
  aiRole := .reviewer
  evaluatedAt := evaluatedAt
  transcriptAvailable := false
  audioAvailable := false
  writtenEnglishAvailable := true
  scoredRecording := false
  dimensions := blockRows.map fun row =>
    { dimensionSlug := row.slug, availability := .scored, score := some 3 }
  skillDimensionSubsets := [⟨"sql_reconciliation", blockRows.map DimensionRow.slug⟩]

theorem seedsInv_empty : SeedsInv Seeds.empty where
  competencies := Serial.keyed_empty _
  exercises := Serial.keyed_empty _
  dimensions := Serial.keyed_empty _
  mappings := by simp [Seeds.empty, Serial.empty]

theorem unseeded_empty (ownerId configId : Nat) : Unseeded Seeds.empty ownerId configId where
  competencies := by simp [Seeds.empty, Serial.empty]
  exercises := by simp [Seeds.empty, Serial.empty]
  dimensions := by simp [Seeds.empty, Serial.empty]

theorem sound_sample (bundle : ConfigBundle) :
    Sound (sampleLineage bundle) (sampleLedger bundle) where
  seeded := by
    intro config hcfg found hpay
    rw [List.mem_singleton.mp hcfg] at hpay ⊢
    cases hpay
    exact seeded_seedConfig seedsInv_empty (unseeded_empty 1 1)
  evaluations := Serial.keyed_empty _
  dimensionScores := Serial.keyed_empty _
  events := Serial.keyed_empty _

theorem committed_sample (bundle : ConfigBundle) : Committed (sampleLineage bundle) := by
  intro attempt hatt _ activity hact _ _
  rw [List.mem_singleton.mp hatt, List.mem_singleton.mp hact]
  refine ⟨_, rfl, ?_⟩
  intro taskContext output hparts
  cases hparts
  exact ⟨_, _, _, rfl, rfl, rfl, rfl, rfl⟩

def eventVerdicts (lineage : Lineage) (ledger : Ledger) (now : Instant) (ownerId : Nat)
    (command : EvidenceEvaluationCommand) :
    Except EvidenceFailure (List (Except EvidenceContractError Unit)) := do
  let context ← loadContext lineage ledger ownerId command
  let prepared ← prepareEvaluation context command
  let (evaluation, ledger) ← saveEvaluation ledger ownerId prepared now
  let (scores, ledger) ← saveDimensionScores ledger ownerId evaluation prepared now
  let pending ← prepared.skillEvents.mapM
    (pendingSkillEvent ownerId evaluation scores prepared now)
  return pending.map fun row => validateSkillEvidenceEvent lineage ledger (row 0)

/-- The only event of the sample weighs `0.675`, below the shipped cap of
`1.15`, and the ledger takes it. -/
theorem skill_events_accepted_sample :
    ∃ context prepared evaluation middle scores after pending,
      loadContext (sampleLineage shippedBundle) (sampleLedger shippedBundle) 1
          (sampleEvaluation 70) = .ok context ∧
      prepareEvaluation context (sampleEvaluation 70) = .ok prepared ∧
      saveEvaluation (sampleLedger shippedBundle) 1 prepared 70 = .ok (evaluation, middle) ∧
      saveDimensionScores middle 1 evaluation prepared 70 = .ok (scores, after) ∧
      prepared.skillEvents.mapM (pendingSkillEvent 1 evaluation scores prepared 70) =
        .ok pending ∧
      ((∀ row ∈ pending,
          validateSkillEvidenceEvent (sampleLineage shippedBundle) after (row 0) = .ok ()) ↔
        WithinCap context (sampleEvaluation 70)) := by
  have hprepares : (do
      let context ← loadContext (sampleLineage shippedBundle) (sampleLedger shippedBundle) 1
        (sampleEvaluation 70)
      let prepared ← prepareEvaluation context (sampleEvaluation 70)
      return (context, prepared)).isOk = true := by decide +kernel
  obtain ⟨⟨context, prepared⟩, hprepared⟩ := exists_ok_of_isOk hprepares
  simp only [bind_ok_iff] at hprepared
  obtain ⟨_, hload, _, hprepare, hpair⟩ := hprepared
  cases hpair
  obtain ⟨evaluation, middle, scores, after, pending, haccepted⟩ :=
    skill_events_accepted_iff (sound_sample shippedBundle) (committed_sample shippedBundle)
      (by decide +kernel) hload hprepare 70
  exact ⟨context, prepared, evaluation, middle, scores, after, pending, hload, hprepare, haccepted⟩

def cappedFormula : FormulaConfig :=
  { shippedFormula with
    maximumEffectiveWeightPerEvent := 1 / 2
    maximum_pos := by decide +kernel
    maximum_le := by decide +kernel
    maximum_places := by decide +kernel }

/-- A capped event is prepared and then refused. -/
theorem capped_event_refused :
    eventVerdicts (sampleLineage (bundleOf cappedFormula rfl))
        (sampleLedger (bundleOf cappedFormula rfl)) 70 1 (sampleEvaluation 70) =
      .ok [.error ⟨"effective evidence weight is not reproducible"⟩] := by
  decide +kernel

end TamForge.Evidence
