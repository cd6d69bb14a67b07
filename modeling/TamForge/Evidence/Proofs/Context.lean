import TamForge.Evidence.Proofs.Recording
import TamForge.Evidence.Proofs.Seeding

/-!
# The context of an evaluation

What `_load_context` has found when it succeeds, and that the evaluation and
its dimension scores are then always saved.
-/

namespace TamForge.Evidence

open Learning Models ProofSupport ProofSupport.Decimals

variable {lineage : Lineage} {ledger : Ledger} {now : Instant} {ownerId : Nat}
  {command : EvidenceEvaluationCommand} {context : EvaluationContext}
  {prepared : PreparedEvaluation}

/-! ## The context -/

structure Loads (lineage : Lineage) (ledger : Ledger) (ownerId : Nat)
    (command : EvidenceEvaluationCommand) (context : EvaluationContext)
    (config : ConfigSeedVersion) (bundle : ConfigBundle) (activity : ActivityInstance)
    (attempt : Attempt) (exercise : ExerciseTypeVersion) : Prop where
  config_mem : config ∈ lineage.configs
  config_owner : config.ownerId = ownerId
  config_id : context.configSeedVersionId = config.id
  payload : config.payload = .ok bundle
  formula : context.formula = bundle.formula
  exercise_config : bundle.exercise command.exerciseType = some context.exercise
  row : ∃ selfReview, attemptRow? lineage ownerId command.activityId command.attemptId =
    some (activity, attempt, selfReview)
  task : ∃ taskContext output, attemptParts attempt.originalText = .ok (taskContext, output) ∧
    checkTaskContext taskContext command = .ok ()
  activity_id : context.activityId = activity.id
  attempt_id : context.attemptId = attempt.id
  attempt_kind : context.attemptKind = attempt.attemptKind
  exercise_mem : exercise ∈ ledger.seeds.exerciseTypes.rows
  exercise_keys : exercise.ownerId = ownerId ∧ exercise.configSeedVersionId = config.id ∧
    exercise.exerciseType = command.exerciseType ∧
    exercise.mappingVersion = command.mappingVersion
  exercise_id : context.exerciseTypeVersionId = exercise.id
  dimensions : context.dimensions = (dimensionRows ledger.seeds ownerId config.id
    context.rubricVersionId).map fun row => ⟨row.id, row.dimensionKey, row.weight, row.maxScore⟩
  skills : context.skills =
    (skillRows ledger.seeds ownerId config.id).map fun row => ⟨row.id, row.slug⟩

theorem loadConfig_ok {config : CommandConfig}
    (h : loadConfig lineage ownerId command = .ok config) :
    config.row ∈ lineage.configs ∧ config.row.ownerId = ownerId ∧
      config.row.payload = .ok config.bundle ∧
      config.bundle.exercise command.exerciseType = some config.exercise ∧
      config.bundle.rubric command.rubricSlug = some config.rubric := by
  unfold loadConfig at h
  split at h
  · rename_i row hrow
    simp only [bind_ok_iff] at h
    obtain ⟨bundle, hbundle, h⟩ := h
    split at h
    · rename_i exercise hexer
      split at h
      · rename_i rubric hrub
        cases h
        have hkeys := List.find?_some hrow
        simp only [decide_eq_true_eq] at hkeys
        refine ⟨List.mem_of_find?_eq_some hrow, hkeys.1, ?_, hexer, hrub⟩
        cases hpay : row.payload with
        | error message =>
          rw [hpay] at hbundle
          cases hbundle
        | ok found =>
          rw [hpay] at hbundle
          cases hbundle
          rfl
      · cases h
    · cases h
  · cases h

theorem loadContext_ok (h : loadContext lineage ledger ownerId command = .ok context) :
    ∃ config bundle activity attempt exercise,
      Loads lineage ledger ownerId command context config bundle activity attempt exercise := by
  simp only [loadContext, bind_ok_iff] at h
  obtain ⟨config, hcfg, h⟩ := h
  obtain ⟨hmem, hown, hpay, hexer, -⟩ := loadConfig_ok hcfg
  split at h
  · rename_i activity attempt selfReview hrow
    simp only [bind_ok_iff] at h
    obtain ⟨_, -, ⟨taskContext, output⟩, hparts, _, htask, h⟩ := h
    split at h
    · rename_i exercise hfind
      split at h
      · rename_i rubric hrub
        simp only [bind_ok_iff] at h
        obtain ⟨_, -, selector, -, h⟩ := h
        cases h
        have hkeys := List.find?_some hfind
        simp only [decide_eq_true_eq] at hkeys
        exact ⟨config.row, config.bundle, activity, attempt, exercise, hmem, hown, rfl, hpay,
          rfl, hexer, ⟨selfReview, hrow⟩, ⟨taskContext, output, hparts, htask⟩, rfl, rfl, rfl,
          List.mem_of_find?_eq_some hfind, hkeys, rfl, rfl, rfl⟩
      · cases h
    · cases h
  · cases h

/-! ## The scores of the dimensions -/

variable {persisted : PersistedDimension}

theorem prepareDimension_ok {dimension : PreparedDimensionScore}
    (h : prepareDimension command persisted = .ok dimension) :
    ∃ supplied, command.dimensions.find? (fun input => input.dimensionSlug = persisted.slug) =
        some supplied ∧ (∀ score ∈ supplied.score, score ≤ persisted.maximum) ∧
      dimension = { dimensionId := persisted.id
                    dimensionSlug := persisted.slug
                    availability := supplied.availability
                    score := supplied.score
                    weight := if supplied.availability = .scored then some persisted.weight
                      else none
                    artifactIds := supplied.evidenceArtifactIds
                    observationIds := supplied.evidenceObservationIds } := by
  unfold prepareDimension at h
  split at h
  · cases h
  · rename_i supplied hfind
    split at h
    · cases h
    · rename_i hscore
      cases h
      refine ⟨supplied, hfind, ?_, rfl⟩
      intro score hmem
      rw [Option.mem_def] at hmem
      rw [hmem] at hscore
      simpa using hscore

theorem valid_of_checkCommand (h : checkCommand command = true) :
    ∀ input ∈ command.dimensions, input.valid = true := by
  simp only [checkCommand, Bool.and_eq_true, List.all_eq_true] at h
  intro input hinput
  exact h.1.1.1.1.1.2 input hinput

theorem references_of_checkCommand (h : checkCommand command = true) :
    referencesValid command.artifactIds = true ∧ referencesValid command.observationIds = true := by
  simp only [checkCommand, Bool.and_eq_true] at h
  exact ⟨h.1.1.1.1.1.1.1.1.1.2, h.1.1.1.1.1.1.1.1.2⟩

theorem ReferenceManifest.valid_of_references {artifactIds observationIds : List Nat}
    (harts : referencesValid artifactIds = true)
    (hobservations : referencesValid observationIds = true) :
    (ReferenceManifest.mk artifactIds observationIds).valid = true := by
  simp only [referencesValid, Bool.and_eq_true] at harts hobservations
  simp only [ReferenceManifest.valid, List.all_cons, List.all_nil, Bool.and_true, Bool.and_eq_true]
  exact ⟨harts.1, hobservations.1⟩

theorem saveEvaluation_accepts (ledger : Ledger) (ownerId : Nat) (now : Instant)
    (hcmd : checkCommand command = true)
    (hprep : prepareEvaluation context command = .ok prepared) :
    ∃ evaluation ledger',
      saveEvaluation ledger ownerId prepared now = .ok (evaluation, ledger') := by
  obtain ⟨dims, impacts, events, components, -, rfl⟩ := prepareEvaluation_ok hprep
  obtain ⟨harts, hobservations⟩ := references_of_checkCommand hcmd
  have hval := ReferenceManifest.valid_of_references harts hobservations
  have hchk : contracted (structuredPayload
      (ReferenceManifest.mk command.artifactIds command.observationIds).valid) = .ok () := by
    rw [hval]
    rfl
  exact ⟨_, _, bind_ok_iff.mpr ⟨_, hchk, rfl⟩⟩

variable {bundle : ConfigBundle} {activity : ActivityInstance} {attempt : Attempt}
  {exercise : ExerciseTypeVersion}

theorem Loads.dimension {config : ConfigSeedVersion}
    (h : Loads lineage ledger ownerId command context config bundle activity attempt exercise)
    (hmem : persisted ∈ context.dimensions) :
    ∃ row ∈ ledger.seeds.dimensions.rows, row.ownerId = ownerId ∧
      row.configSeedVersionId = context.configSeedVersionId ∧
      row.rubricVersionId = context.rubricVersionId ∧ row.id = persisted.id ∧
      row.dimensionKey = persisted.slug ∧ row.weight = persisted.weight ∧
      row.maxScore = persisted.maximum := by
  rw [h.dimensions] at hmem
  obtain ⟨row, hrow, rfl⟩ := List.mem_map.mp hmem
  obtain ⟨hrows, hkeys⟩ := List.mem_filter.mp ((List.mem_insertionSort _).mp hrow)
  simp only [decide_eq_true_eq] at hkeys
  rw [h.config_id]
  exact ⟨row, hrows, hkeys.1, hkeys.2.1, hkeys.2.2, rfl, rfl, rfl, rfl⟩

structure Sound (lineage : Lineage) (ledger : Ledger) : Prop where
  seeded : ∀ config ∈ lineage.configs, ∀ bundle, config.payload = .ok bundle →
    Seeded ledger.seeds config.ownerId config.id bundle
  evaluations : ledger.evaluations.Keyed RubricEvaluation.id
  dimensionScores : ledger.dimensionScores.Keyed RubricDimensionScore.id
  events : ledger.events.Keyed SkillEvidenceEvent.id

theorem Loads.seeded {config : ConfigSeedVersion}
    (h : Loads lineage ledger ownerId command context config bundle activity attempt exercise)
    (hsound : Sound lineage ledger) :
    Seeded ledger.seeds ownerId context.configSeedVersionId bundle := by
  have hseed := hsound.seeded config h.config_mem bundle h.payload
  rw [h.config_owner, ← h.config_id] at hseed
  exact hseed

theorem validateRubricDimensionScore_accepts {tgt : RubricDimensionScore}
    {dimension : RubricDimension} (hmani : tgt.evidenceManifest.valid = true)
    (hscore : tgt.score.isSome = decide (tgt.availability = .scored))
    (hwt : tgt.weightUsed.isSome = decide (tgt.availability = .scored))
    (hfind : ledger.seeds.dimensions.rows.find? (fun dimension =>
      dimension.ownerId = tgt.ownerId ∧
        dimension.configSeedVersionId = tgt.configSeedVersionId ∧
        dimension.rubricVersionId = tgt.rubricVersionId ∧
        dimension.id = tgt.rubricDimensionId) = some dimension)
    (hmax : ∀ score ∈ tgt.score, score ≤ dimension.maxScore) :
    validateRubricDimensionScore ledger tgt = .ok () := by
  have hover : (tgt.score.any fun score => decide (dimension.maxScore < score)) = false := by
    cases hsome : tgt.score with
    | none => rfl
    | some score => simpa using hmax score hsome
  have hchecked : structuredPayload tgt.evidenceManifest.valid = .ok () := by
    rw [hmani]
    rfl
  rw [validateRubricDimensionScore, hchecked, hfind]
  by_cases havail : tgt.availability = .scored
  · rw [decide_eq_true havail] at hscore hwt
    simp [havail, ← Option.not_isSome, hscore, hwt, hover, raiseFirst, bind, Except.bind]
  · rw [decide_eq_false havail] at hscore hwt
    simp [havail, hscore, hwt, hover, raiseFirst, bind, Except.bind]

variable {evaluation : RubricEvaluation} {after : Ledger}

/-- Every prepared dimension makes a row that its validator and its columns
accept. -/
theorem newDimensionScore_accepted {config : ConfigSeedVersion} {dimension : PreparedDimensionScore}
    (hloads : Loads lineage ledger ownerId command context config bundle activity attempt exercise)
    (hseed : Seeded ledger.seeds ownerId context.configSeedVersionId bundle)
    (hcmd : checkCommand command = true)
    (hcfg : prepared.configSeedVersionId = context.configSeedVersionId)
    (hrub : prepared.rubricVersionId = context.rubricVersionId)
    (hmem : persisted ∈ context.dimensions)
    (hprepd : prepareDimension command persisted = .ok dimension)
    (ha : after.seeds = ledger.seeds) :
    validateRubricDimensionScore after
        (newDimensionScore ownerId evaluation prepared now dimension 0) = .ok () ∧
      (newDimensionScore ownerId evaluation prepared now dimension 0).storable = true := by
  obtain ⟨row, hrow, hrowOwn, hrowCfg, hrowRub, hrowId, -, hrowWt, hrowMax⟩ :=
    hloads.dimension hmem
  obtain ⟨supplied, hfind, hmax, rfl⟩ := prepareDimension_ok hprepd
  have hval := valid_of_checkCommand hcmd supplied (List.mem_of_find?_eq_some hfind)
  simp only [DimensionEvaluationInput.valid, Bool.and_eq_true] at hval
  obtain ⟨⟨⟨⟨-, hscored⟩, hscore⟩, harts⟩, hobservations⟩ := hval
  have hmani := ReferenceManifest.valid_of_references harts hobservations
  have hf : after.seeds.dimensions.rows.find? (fun other => other.ownerId = ownerId ∧
      other.configSeedVersionId = prepared.configSeedVersionId ∧
      other.rubricVersionId = prepared.rubricVersionId ∧ other.id = persisted.id) = some row := by
    rw [ha]
    apply hseed.dimensions_keyed.find? hrow
    · simp [hrowOwn, hrowCfg, hrowRub, hrowId, hcfg, hrub]
    · intro other ho
      simp only [decide_eq_true_eq] at ho
      rw [ho.2.2.2, hrowId]
  obtain ⟨rubric, -, config', -, -, hwt, -⟩ :=
    hseed.dimensions row hrow hrowOwn hrowCfg
  have hwtPos : 0 < persisted.weight ∧ persisted.weight ≤ 1 := by
    rw [← hrowWt, hwt]
    exact ⟨config'.weight_pos, config'.weight_le⟩
  have hsome : supplied.score.isSome = decide (supplied.availability = .scored) := by
    rw [beq_iff_eq] at hscored
    rw [← hscored]
    rfl
  refine ⟨validateRubricDimensionScore_accepts hmani hsome ?_ hf ?_, ?_⟩
  · simp only [newDimensionScore]
    split
    · rename_i havail
      simp [havail]
    · rename_i havail
      simp [havail]
  · rw [hrowMax]
    exact hmax
  · unfold RubricDimensionScore.storable
    simp only [newDimensionScore]
    split
    · rename_i havail
      rw [decide_eq_true havail] at hsome
      obtain ⟨score, hsupplied⟩ := Option.isSome_iff_exists.mp hsome
      rw [hsupplied] at hscore ⊢
      simp only [Option.all_some, decide_eq_true_eq] at hscore
      simp [hscore.1, hscore.2.1, hwtPos]
    · rename_i havail
      rw [decide_eq_false havail] at hsome
      simpa using hsome

def insertedScores (ledger : Ledger) (ownerId : Nat) (evaluation : RubricEvaluation)
    (prepared : PreparedEvaluation) (now : Instant) :
    List RubricDimensionScore × Serial RubricDimensionScore :=
  ledger.dimensionScores.insertAll
    (prepared.dimensions.map (newDimensionScore ownerId evaluation prepared now))

/-- The rows that `_save_dimension_scores` appends. -/
theorem saveDimensionScores_rows {scs : List RubricDimensionScore} {ledger' : Ledger}
    (h : saveDimensionScores ledger ownerId evaluation prepared now = .ok (scs, ledger')) :
    let inserted := insertedScores ledger ownerId evaluation prepared now
    scs = inserted.1 ∧ ledger' = { ledger with dimensionScores := inserted.2 } := by
  simp only [saveDimensionScores, bind_ok_iff] at h
  obtain ⟨_, -, _, -, h⟩ := h
  cases h
  exact ⟨rfl, rfl⟩

theorem Loads.dimensions_nodup {config : ConfigSeedVersion}
    (h : Loads lineage ledger ownerId command context config bundle activity attempt exercise)
    (hkey : ledger.seeds.dimensions.Keyed RubricDimension.id) :
    (context.dimensions.map PersistedDimension.id).Nodup := by
  rw [h.dimensions, List.map_map]
  have hperm : (dimensionRows ledger.seeds ownerId config.id context.rubricVersionId).Perm _ :=
    List.perm_insertionSort _ _
  refine (hperm.map _).nodup_iff.mpr ?_
  exact hkey.nodup.sublist (List.filter_sublist.map _)

theorem saveDimensionScores_accepts (evaluation : RubricEvaluation) (now : Instant)
    (hsound : Sound lineage ledger) (hcmd : checkCommand command = true)
    (hload : loadContext lineage ledger ownerId command = .ok context)
    (hprep : prepareEvaluation context command = .ok prepared)
    (ha : after.seeds = ledger.seeds) :
    ∃ scs ledger', saveDimensionScores after ownerId evaluation prepared now =
      .ok (scs, ledger') := by
  obtain ⟨config, bundle, activity, attempt, exercise, hloads⟩ := loadContext_ok hload
  have hseed := hloads.seeded hsound
  obtain ⟨dims, impacts, events, components, hpreps, rfl⟩ := prepareEvaluation_ok hprep
  let made := PreparedEvaluation.of context command dims events components
  have hacc : ∀ dimension ∈ dims,
      validateRubricDimensionScore after
          (newDimensionScore ownerId evaluation made now dimension 0) = .ok () ∧
        (newDimensionScore ownerId evaluation made now dimension 0).storable = true := by
    intro dimension hdim
    obtain ⟨persisted, hmem, hok⟩ := mapM_ok_mem hpreps.dimensions_ok hdim
    exact newDimensionScore_accepted hloads hseed hcmd rfl rfl hmem hok ha
  have hval : contracted ((made.dimensions.map
      (newDimensionScore ownerId evaluation made now)).forM fun row =>
        validateRubricDimensionScore after (row 0)) = .ok () := by
    rw [contracted, mapError_ok_iff, forM_ok_iff, List.forall_mem_map]
    intro dimension hdim
    exact (hacc dimension hdim).1
  have hids : (made.dimensions.map PreparedDimensionScore.dimensionId).Nodup := by
    have hmap : dims.map PreparedDimensionScore.dimensionId =
        context.dimensions.map PersistedDimension.id := by
      refine mapM_ok_map hpreps.dimensions_ok ?_
      intro persisted dimension hok
      obtain ⟨supplied, -, -, rfl⟩ := prepareDimension_ok hok
      rfl
    show (dims.map PreparedDimensionScore.dimensionId).Nodup
    rw [hmap]
    exact hloads.dimensions_nodup hseed.dimensions_keyed
  have hstorb : stored ((made.dimensions.map
      (newDimensionScore ownerId evaluation made now)).all (fun row => (row 0).storable) &&
        decide (made.dimensions.map PreparedDimensionScore.dimensionId).Nodup) = .ok () := by
    have hrows : (made.dimensions.map
        (newDimensionScore ownerId evaluation made now)).all (fun row => (row 0).storable) = true := by
      rw [List.all_eq_true, List.forall_mem_map]
      intro dimension hdim
      exact (hacc dimension hdim).2
    rw [hrows, decide_eq_true hids]
    rfl
  exact ⟨_, _, bind_ok_iff.mpr ⟨_, hval, bind_ok_iff.mpr ⟨_, hstorb, rfl⟩⟩⟩

end TamForge.Evidence
