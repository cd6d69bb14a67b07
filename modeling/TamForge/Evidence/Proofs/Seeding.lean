import TamForge.Evidence.Seed

/-!
# What seeding leaves

Everything the ledger relies on about the rows of a configuration: each row is
an item of the bundle, and an exercise maps to a skill with the impact and the
condition that the bundle gives it.
-/

namespace TamForge.Evidence

open ProofSupport ProofSupport.Decimals

variable {seeds : Seeds} {ownerId configId : Nat} {bundle : ConfigBundle}

def ExerciseSkillMapping.Of (mapping : ExerciseSkillMapping) (row : ExerciseTypeVersion)
    (skill : Competency) : Prop :=
  mapping.ownerId = row.ownerId ∧ mapping.configSeedVersionId = row.configSeedVersionId ∧
    mapping.exerciseTypeVersionId = row.id ∧ mapping.competencyId = skill.id

def MapsTo (seeds : Seeds) (row : ExerciseTypeVersion) (skill : Competency) (impact : Rat)
    (condition : ConditionCode) : Prop :=
  (∃ mapping ∈ seeds.mappings.rows, mapping.Of row skill) ∧
    ∀ mapping ∈ seeds.mappings.rows, mapping.Of row skill →
      mapping.impact = impact ∧ mapping.conditionCode = condition

structure SeededExercise (seeds : Seeds) (row : ExerciseTypeVersion)
    (exercise : ExerciseTypeConfig) : Prop where
  slug : row.exerciseType = exercise.slug
  version : row.mappingVersion = exercise.mappingVersion
  mode : row.evidenceMode = exercise.evidenceMode
  mapped : ∀ impact ∈ exercise.impacts, ∀ skill ∈ seeds.competencies.rows,
    skill.ownerId = row.ownerId → skill.configSeedVersionId = row.configSeedVersionId →
    skill.slug = impact.skillSlug → MapsTo seeds row skill impact.weight impact.condition
  selected : ∀ weight ∈ exercise.selectedImpact, ∀ slug ∈ exercise.allowedSelectedCompetencies,
    ∀ skill ∈ seeds.competencies.rows, skill.ownerId = row.ownerId →
    skill.configSeedVersionId = row.configSeedVersionId → skill.slug = slug →
    MapsTo seeds row skill weight .reviewedDynamicImpact

def SeededSkill (row : Competency) (skill : SkillConfig) : Prop :=
  row.slug = skill.slug ∧ row.baselineLevel = skill.baseline ∧
    row.monthOneTarget = skill.monthOneTarget ∧ row.finalTarget = skill.finalTarget

def SeededDimension (row : RubricDimension) (dimension : RubricDimensionConfig) : Prop :=
  row.dimensionKey = dimension.slug ∧ row.weight = dimension.weight ∧
    row.maxScore = dimension.maximum

structure Seeded (seeds : Seeds) (ownerId configId : Nat) (bundle : ConfigBundle) : Prop where
  competencies_keyed : seeds.competencies.Keyed Competency.id
  exercises_keyed : seeds.exerciseTypes.Keyed ExerciseTypeVersion.id
  dimensions_keyed : seeds.dimensions.Keyed RubricDimension.id
  skills : ∀ row ∈ seeds.competencies.rows, row.ownerId = ownerId →
    row.configSeedVersionId = configId → ∃ skill ∈ bundle.skills, SeededSkill row skill
  skills_unique : ∀ row ∈ seeds.competencies.rows, ∀ other ∈ seeds.competencies.rows,
    row.ownerId = ownerId → row.configSeedVersionId = configId → other.ownerId = ownerId →
    other.configSeedVersionId = configId → row.slug = other.slug → row = other
  exercises : ∀ row ∈ seeds.exerciseTypes.rows, row.ownerId = ownerId →
    row.configSeedVersionId = configId →
    ∃ exercise ∈ bundle.exerciseTypes, SeededExercise seeds row exercise
  dimensions : ∀ row ∈ seeds.dimensions.rows, row.ownerId = ownerId →
    row.configSeedVersionId = configId → ∃ rubric ∈ bundle.rubrics,
      ∃ dimension ∈ rubric.dimensions, SeededDimension row dimension

/-! ## Seeding a bundle -/

/-- The tables hand out their own identities, and mappings are of exercises
that are there. -/
structure SeedsInv (seeds : Seeds) : Prop where
  competencies : seeds.competencies.Keyed Competency.id
  exercises : seeds.exerciseTypes.Keyed ExerciseTypeVersion.id
  dimensions : seeds.dimensions.Keyed RubricDimension.id
  mappings : ∀ mapping ∈ seeds.mappings.rows,
    mapping.exerciseTypeVersionId < seeds.exerciseTypes.next

structure Unseeded (seeds : Seeds) (ownerId configId : Nat) : Prop where
  competencies : ∀ row ∈ seeds.competencies.rows,
    ¬(row.ownerId = ownerId ∧ row.configSeedVersionId = configId)
  exercises : ∀ row ∈ seeds.exerciseTypes.rows,
    ¬(row.ownerId = ownerId ∧ row.configSeedVersionId = configId)
  dimensions : ∀ row ∈ seeds.dimensions.rows,
    ¬(row.ownerId = ownerId ∧ row.configSeedVersionId = configId)

variable {after : Seeds} {added : List ExerciseSkillMapping}

theorem MapsTo.append {row : ExerciseTypeVersion} {skill : Competency} {imp : Rat}
    {condition : ConditionCode} (h : MapsTo seeds row skill imp condition)
    (hrows : after.mappings.rows = seeds.mappings.rows ++ added)
    (hadded : ∀ mapg ∈ added, mapg.exerciseTypeVersionId ≠ row.id) :
    MapsTo after row skill imp condition := by
  obtain ⟨⟨mapg, hmem, hof⟩, hall⟩ := h
  refine ⟨⟨mapg, by rw [hrows]; exact List.mem_append_left _ hmem, hof⟩, ?_⟩
  intro other ho hotherOf
  rw [hrows] at ho
  rcases List.mem_append.mp ho with hold | hnew
  · exact hall other hold hotherOf
  · exact absurd hotherOf.2.2.1 (hadded other hnew)

structure SeededSkills (seeds : Seeds) (ownerId configId : Nat) (bundle : ConfigBundle)
    (rows : List Competency) : Prop where
  rows_eq : ∀ row ∈ seeds.competencies.rows, row.ownerId = ownerId →
    row.configSeedVersionId = configId → row ∈ rows
  mem : ∀ row ∈ rows, row ∈ seeds.competencies.rows
  skill : ∀ row ∈ rows, row.ownerId = ownerId ∧ row.configSeedVersionId = configId ∧
    ∃ skill ∈ bundle.skills, SeededSkill row skill
  known : ∀ slug ∈ bundle.skills.map SkillConfig.slug, ∃ row ∈ rows, row.slug = slug
  nodup : (rows.map Competency.slug).Nodup

variable {rows : List Competency}

theorem SeededSkills.competencyId {row : Competency}
    (h : SeededSkills seeds ownerId configId bundle rows) (hrow : row ∈ rows) :
    competencyId rows row.slug = row.id := by
  have hfind : rows.find? (fun other => other.slug = row.slug) = some row := by
    cases hf : rows.find? fun other => other.slug = row.slug with
    | none =>
      have hnone := List.find?_eq_none.mp hf row hrow
      simp at hnone
    | some found =>
      have hmem := List.mem_of_find?_eq_some hf
      have hslug : found.slug = row.slug := by simpa using List.find?_some hf
      rw [List.inj_on_of_nodup_map h.nodup hmem hrow hslug]
  rw [Evidence.competencyId, hfind]
  rfl

theorem SeededSkills.slug_eq {row : Competency} {slug : String}
    (h : SeededSkills seeds ownerId configId bundle rows)
    (hkey : seeds.competencies.Keyed Competency.id) (hrow : row ∈ rows)
    (hslug : slug ∈ bundle.skills.map SkillConfig.slug)
    (hid : Evidence.competencyId rows slug = row.id) : slug = row.slug := by
  obtain ⟨other, ho, rfl⟩ := h.known slug hslug
  rw [h.competencyId ho] at hid
  rw [hkey.eq_of_key (h.mem other ho) (h.mem row hrow) hid]

theorem seedExercise_rows (seeds : Seeds) (ownerId configId : Nat) (rows : List Competency)
    (exercise : ExerciseTypeConfig) :
    let after := seedExercise ownerId configId rows seeds exercise
    ∃ row added, row.id = seeds.exerciseTypes.next ∧ row.ownerId = ownerId ∧
      row.configSeedVersionId = configId ∧ row.exerciseType = exercise.slug ∧
      row.mappingVersion = exercise.mappingVersion ∧ row.evidenceMode = exercise.evidenceMode ∧
      after.exerciseTypes.rows = seeds.exerciseTypes.rows ++ [row] ∧
      after.exerciseTypes.next = seeds.exerciseTypes.next + 1 ∧
      after.mappings.rows = seeds.mappings.rows ++ added ∧
      after.competencies = seeds.competencies ∧ after.dimensions = seeds.dimensions ∧
      (∀ mapg ∈ added, mapg.ownerId = ownerId ∧ mapg.configSeedVersionId = configId ∧
        mapg.exerciseTypeVersionId = row.id ∧
        ((∃ imp ∈ exercise.impacts, mapg.impact = imp.weight ∧
            mapg.conditionCode = imp.condition ∧
            mapg.competencyId = Evidence.competencyId rows imp.skillSlug) ∨
          ∃ wt ∈ exercise.selectedImpact, ∃ slug ∈ exercise.allowedSelectedCompetencies,
            mapg.impact = wt ∧ mapg.conditionCode = .reviewedDynamicImpact ∧
            mapg.competencyId = Evidence.competencyId rows slug)) ∧
      (∀ imp ∈ exercise.impacts, ∃ mapg ∈ added,
        mapg.competencyId = Evidence.competencyId rows imp.skillSlug) ∧
      ∀ wt ∈ exercise.selectedImpact, ∀ slug ∈ exercise.allowedSelectedCompetencies,
        ∃ mapg ∈ added, mapg.competencyId = Evidence.competencyId rows slug := by
  intro after
  refine ⟨_, _, rfl, rfl, rfl, rfl, rfl, rfl, rfl, rfl, Serial.insertAll_rows _ _, rfl, rfl, ?_, ?_,
    ?_⟩
  · intro mapg hmapg
    obtain ⟨make, hmake, id, rfl⟩ := Serial.mem_insertAll hmapg
    rcases List.mem_append.mp hmake with hmap | hsel
    · obtain ⟨imp, himp, rfl⟩ := List.mem_map.mp hmap
      exact ⟨rfl, rfl, rfl, Or.inl ⟨imp, himp, rfl, rfl, rfl⟩⟩
    · obtain ⟨wt, hwt, hslugs⟩ := List.mem_flatMap.mp hsel
      obtain ⟨slug, hslug, rfl⟩ := List.mem_map.mp hslugs
      exact ⟨rfl, rfl, rfl, Or.inr ⟨wt, Option.mem_toList.mp hwt, slug, hslug, rfl, rfl,
        rfl⟩⟩
  · intro imp himp
    obtain ⟨id, hid⟩ := Serial.exists_mem_insertAll seeds.mappings
      (List.mem_append_left _ (List.mem_map_of_mem himp))
    exact ⟨_, hid, rfl⟩
  · intro wt hwt slug hslug
    have hmake : (fun id => ExerciseSkillMapping.mk id ownerId configId seeds.exerciseTypes.next
        (Evidence.competencyId rows slug) wt .reviewedDynamicImpact) ∈
        exercise.selectedImpact.toList.flatMap fun wt =>
          exercise.allowedSelectedCompetencies.map fun slug id =>
            ExerciseSkillMapping.mk id ownerId configId seeds.exerciseTypes.next
              (Evidence.competencyId rows slug) wt .reviewedDynamicImpact :=
      List.mem_flatMap.mpr ⟨wt, Option.mem_toList.mpr hwt, List.mem_map_of_mem hslug⟩
    obtain ⟨id, hid⟩ := Serial.exists_mem_insertAll seeds.mappings
      (List.mem_append_right _ hmake)
    exact ⟨_, hid, rfl⟩

structure Seeding (seeds : Seeds) (ownerId configId : Nat) (bundle : ConfigBundle)
    (rows : List Competency) : Prop where
  inv : SeedsInv seeds
  skills : SeededSkills seeds ownerId configId bundle rows
  exercises : ∀ row ∈ seeds.exerciseTypes.rows, row.ownerId = ownerId →
    row.configSeedVersionId = configId →
    ∃ exercise ∈ bundle.exerciseTypes, SeededExercise seeds row exercise

theorem SeededSkills.congr (h : SeededSkills seeds ownerId configId bundle rows)
    (hsame : after.competencies = seeds.competencies) :
    SeededSkills after ownerId configId bundle rows := by
  obtain ⟨hrows, hmem, hskill, hknown, hnd⟩ := h
  exact ⟨by rw [hsame]; exact hrows, by rw [hsame]; exact hmem, hskill, hknown, hnd⟩

theorem SeededExercise.append {row : ExerciseTypeVersion} {exercise : ExerciseTypeConfig}
    (h : SeededExercise seeds row exercise)
    (hcomps : after.competencies = seeds.competencies)
    (hrows : after.mappings.rows = seeds.mappings.rows ++ added)
    (hadded : ∀ mapg ∈ added, mapg.exerciseTypeVersionId ≠ row.id) :
    SeededExercise after row exercise := by
  refine ⟨h.slug, h.version, h.mode, ?_, ?_⟩
  · intro imp himp skill hskill hown hcfg hslug
    rw [hcomps] at hskill
    exact (h.mapped imp himp skill hskill hown hcfg hslug).append hrows hadded
  · intro wt hwt slug hslug skill hskill hown hcfg hsame
    rw [hcomps] at hskill
    exact (h.selected wt hwt slug hslug skill hskill hown hcfg hsame).append hrows
      hadded

theorem Seeding.exercise {exercise : ExerciseTypeConfig}
    (h : Seeding seeds ownerId configId bundle rows)
    (hexer : exercise ∈ bundle.exerciseTypes) :
    Seeding (seedExercise ownerId configId rows seeds exercise) ownerId configId bundle rows := by
  have hlink := bundle.exercises_linked exercise hexer
  have hkey : (seedExercise ownerId configId rows seeds exercise).exerciseTypes.Keyed
      ExerciseTypeVersion.id := by
    show (seeds.exerciseTypes.insert fun id => ⟨id, ownerId, configId, exercise.slug,
      exercise.mappingVersion, exercise.evidenceMode⟩).2.Keyed ExerciseTypeVersion.id
    exact h.inv.exercises.insert fun _ => rfl
  obtain ⟨row, added, hid, hown, hcfg, hslug, hver, hmode, hexerRows, hnext,
    hmapgRows, hcomps, hdims, hadded, hmap, hsel⟩ :=
    seedExercise_rows seeds ownerId configId rows exercise
  set after := seedExercise ownerId configId rows seeds exercise
  refine ⟨⟨?_, hkey, ?_, ?_⟩, h.skills.congr hcomps, ?_⟩
  · rw [hcomps]
    exact h.inv.competencies
  · rw [hdims]
    exact h.inv.dimensions
  · intro mapg hmapg
    rw [hmapgRows] at hmapg
    rcases List.mem_append.mp hmapg with hold | hnew
    · have hlt := h.inv.mappings mapg hold
      omega
    · have hrow := (hadded mapg hnew).2.2.1
      omega
  · intro other ho hotherOwn hotherCfg
    rw [hexerRows] at ho
    rcases List.mem_append.mp ho with hold | hnew
    · obtain ⟨found, hf, hseed⟩ := h.exercises other hold hotherOwn hotherCfg
      refine ⟨found, hf, hseed.append hcomps hmapgRows ?_⟩
      intro mapg hmapg
      have hrow := (hadded mapg hmapg).2.2.1
      have hlt := h.inv.exercises.lt other hold
      omega
    · rw [List.mem_singleton.mp hnew]
      -- A mapping of the new row is one of the added ones, under the slug of its skill.
      have hof : ∀ mapg ∈ after.mappings.rows, ∀ skill ∈ rows, mapg.Of row skill →
          mapg ∈ added ∧ mapg.competencyId = skill.id := by
        intro mapg hmapg skill _ hmapgOf
        rw [hmapgRows] at hmapg
        rcases List.mem_append.mp hmapg with hold | hadd
        · have hlt := h.inv.mappings mapg hold
          have hrow := hmapgOf.2.2.1
          omega
        · exact ⟨hadd, hmapgOf.2.2.2⟩
      have hmem : ∀ mapg ∈ added, mapg ∈ after.mappings.rows := by
        intro mapg hmapg
        rw [hmapgRows]
        exact List.mem_append_right _ hmapg
      have hslugOf : ∀ skill ∈ rows, ∀ slug ∈ bundle.skills.map SkillConfig.slug,
          Evidence.competencyId rows slug = skill.id → slug = skill.slug :=
        fun skill hskill slug hknown heq => h.skills.slug_eq h.inv.competencies hskill hknown heq
      have hskills : ∀ skill ∈ after.competencies.rows, skill.ownerId = row.ownerId →
          skill.configSeedVersionId = row.configSeedVersionId → skill ∈ rows := by
        intro skill hskill hskillOwn hskillCfg
        rw [hcomps] at hskill
        exact h.skills.rows_eq skill hskill (hskillOwn.trans hown) (hskillCfg.trans hcfg)
      refine ⟨exercise, hexer, hslug, hver, hmode, ?_, ?_⟩
      · intro imp himp skill hskill hskillOwn hskillCfg hskillSlug
        have hrow := hskills skill hskill hskillOwn hskillCfg
        constructor
        · obtain ⟨mapg, hmapg, hcomp⟩ := hmap imp himp
          obtain ⟨hmapgOwn, hmapgCfg, hmapgRow, -⟩ := hadded mapg hmapg
          refine ⟨mapg, hmem mapg hmapg, hmapgOwn.trans hown.symm,
            hmapgCfg.trans hcfg.symm, hmapgRow, ?_⟩
          rw [hcomp, ← hskillSlug, h.skills.competencyId hrow]
        · intro mapg hmapg hmapgOf
          obtain ⟨hadd, hcomp⟩ := hof mapg hmapg skill hrow hmapgOf
          obtain ⟨-, -, -, ⟨other, ho, himpEq, hconditionEq, hotherId⟩ |
            ⟨weight, -, slug, hok, -, -, hotherId⟩⟩ := hadded mapg hadd
          · have hsame := hslugOf skill hrow other.skillSlug (hlink.impacts_known other ho)
              (hotherId.symm.trans hcomp)
            have heq := List.inj_on_of_nodup_map hlink.impacts_nodup ho himp
              (hsame.trans hskillSlug)
            rw [← heq]
            exact ⟨himpEq, hconditionEq⟩
          · have hsame := hslugOf skill hrow slug (hlink.allowed_known slug hok)
              (hotherId.symm.trans hcomp)
            refine absurd (List.mem_map_of_mem himp) (hlink.allowed_disjoint _ ?_)
            rw [← hskillSlug, ← hsame]
            exact hok
      · intro weight hwt slug hok skill hskill hskillOwn hskillCfg hskillSlug
        have hrow := hskills skill hskill hskillOwn hskillCfg
        constructor
        · obtain ⟨mapg, hmapg, hcomp⟩ := hsel weight hwt slug hok
          obtain ⟨hmapgOwn, hmapgCfg, hmapgRow, -⟩ := hadded mapg hmapg
          refine ⟨mapg, hmem mapg hmapg, hmapgOwn.trans hown.symm,
            hmapgCfg.trans hcfg.symm, hmapgRow, ?_⟩
          rw [hcomp, ← hskillSlug, h.skills.competencyId hrow]
        · intro mapg hmapg hmapgOf
          obtain ⟨hadd, hcomp⟩ := hof mapg hmapg skill hrow hmapgOf
          obtain ⟨-, -, -, ⟨other, ho, -, -, hotherId⟩ |
            ⟨found, hf, -, -, hfoundEq, hconditionEq, -⟩⟩ := hadded mapg hadd
          · have hsame := hslugOf skill hrow other.skillSlug (hlink.impacts_known other ho)
              (hotherId.symm.trans hcomp)
            refine absurd (List.mem_map_of_mem ho) (hlink.allowed_disjoint _ ?_)
            rw [hsame, hskillSlug]
            exact hok
          · have heq : found = weight := Option.some.inj (hf.symm.trans hwt)
            rw [← heq]
            exact ⟨hfoundEq, hconditionEq⟩

theorem Seeding.exercises_foldl {exercises : List ExerciseTypeConfig}
    (h : Seeding seeds ownerId configId bundle rows)
    (hexercises : ∀ exercise ∈ exercises, exercise ∈ bundle.exerciseTypes) :
    Seeding (exercises.foldl (seedExercise ownerId configId rows) seeds) ownerId configId bundle
        rows ∧
      (exercises.foldl (seedExercise ownerId configId rows) seeds).dimensions =
        seeds.dimensions := by
  induction exercises generalizing seeds with
  | nil => exact ⟨h, rfl⟩
  | cons exercise rest ih =>
    have hfst := h.exercise (hexercises exercise (by simp))
    obtain ⟨hseeding, hdims⟩ := ih hfst fun other ho => hexercises other (by simp [ho])
    exact ⟨hseeding, hdims⟩

/-- Seeding a rubric adds its dimensions and touches nothing else that is read
here. -/
theorem seedRubric_rows (ownerId configId : Nat) (rubric : RubricConfig)
    (hkey : seeds.dimensions.Keyed RubricDimension.id) :
    let after := seedRubric ownerId configId seeds rubric
    after.competencies = seeds.competencies ∧ after.exerciseTypes = seeds.exerciseTypes ∧
      after.mappings = seeds.mappings ∧ after.dimensions.Keyed RubricDimension.id ∧
      ∃ added, after.dimensions.rows = seeds.dimensions.rows ++ added ∧
        ∀ row ∈ added, ∃ dimension ∈ rubric.dimensions, SeededDimension row dimension := by
  refine ⟨rfl, rfl, rfl, ?_, _, Serial.insertAll_rows _ _, ?_⟩
  · refine hkey.insertAll ?_
    intro make hmake id
    obtain ⟨item, -, rfl⟩ := List.mem_map.mp hmake
    rfl
  · intro row hrow
    obtain ⟨make, hmake, id, rfl⟩ := Serial.mem_insertAll hrow
    obtain ⟨item, hitem, rfl⟩ := List.mem_map.mp hmake
    exact ⟨item.1, List.fst_mem_of_mem_zipIdx hitem, rfl, rfl, rfl⟩

def SeededDimensions (seeds : Seeds) (ownerId configId : Nat) (bundle : ConfigBundle) : Prop :=
  seeds.dimensions.Keyed RubricDimension.id ∧
    ∀ row ∈ seeds.dimensions.rows, row.ownerId = ownerId → row.configSeedVersionId = configId →
      ∃ rubric ∈ bundle.rubrics, ∃ dimension ∈ rubric.dimensions, SeededDimension row dimension

theorem SeededDimensions.rubrics_foldl {rubrics : List RubricConfig}
    (h : SeededDimensions seeds ownerId configId bundle)
    (hrubrics : ∀ rubric ∈ rubrics, rubric ∈ bundle.rubrics) :
    let after := rubrics.foldl (seedRubric ownerId configId) seeds
    SeededDimensions after ownerId configId bundle ∧ after.competencies = seeds.competencies ∧
      after.exerciseTypes = seeds.exerciseTypes ∧ after.mappings = seeds.mappings := by
  induction rubrics generalizing seeds with
  | nil => exact ⟨h, rfl, rfl, rfl⟩
  | cons rubric rest ih =>
    obtain ⟨hcomps, hexercises, hmappings, hkey, added, hrows, hadded⟩ :=
      seedRubric_rows ownerId configId rubric h.1
    have ha : SeededDimensions (seedRubric ownerId configId seeds rubric) ownerId configId
        bundle := by
      refine ⟨hkey, ?_⟩
      intro row hrow hown hcfg
      rw [hrows] at hrow
      rcases List.mem_append.mp hrow with hold | hnew
      · exact h.2 row hold hown hcfg
      · obtain ⟨dimension, hdim, hseed⟩ := hadded row hnew
        exact ⟨rubric, hrubrics rubric (by simp), dimension, hdim, hseed⟩
    exact ih ha fun other ho => hrubrics other (by simp [ho])

theorem seededSkills_insertAll (hfree : Unseeded seeds ownerId configId) :
    let inserted := seeds.competencies.insertAll (bundle.skills.map fun skill id =>
      ⟨id, ownerId, configId, skill.slug, skill.baseline, skill.monthOneTarget, skill.finalTarget⟩)
    SeededSkills { seeds with competencies := inserted.2 } ownerId configId bundle inserted.1 := by
  intro inserted
  have hrows : inserted.2.rows = seeds.competencies.rows ++ inserted.1 := Serial.insertAll_rows _ _
  constructor
  · intro row hrow hown hcfg
    have hrow' : row ∈ seeds.competencies.rows ++ inserted.1 := hrows ▸ hrow
    rcases List.mem_append.mp hrow' with hold | hnew
    · exact absurd ⟨hown, hcfg⟩ (hfree.competencies row hold)
    · exact hnew
  · intro row hrow
    show row ∈ inserted.2.rows
    rw [hrows]
    exact List.mem_append_right _ hrow
  · intro row hrow
    obtain ⟨make, hmake, id, rfl⟩ := Serial.mem_insertAll hrow
    obtain ⟨skill, hskill, rfl⟩ := List.mem_map.mp hmake
    exact ⟨rfl, rfl, skill, hskill, rfl, rfl, rfl, rfl⟩
  · intro slug hslug
    obtain ⟨skill, hskill, rfl⟩ := List.mem_map.mp hslug
    obtain ⟨id, hid⟩ := Serial.exists_mem_insertAll seeds.competencies
      (List.mem_map_of_mem hskill)
    exact ⟨_, hid, rfl⟩
  · have hslugs : inserted.1.map Competency.slug = bundle.skills.map SkillConfig.slug := by
      have hmap : inserted.1.map Competency.slug = _ :=
        Serial.insertAll_map (g := fun make => (make 0).slug) seeds.competencies (by
          intro make hmake id
          obtain ⟨skill, -, rfl⟩ := List.mem_map.mp hmake
          rfl)
      rw [List.map_map] at hmap
      exact hmap
    rw [hslugs]
    exact bundle.skills_nodup

theorem seeded_seedConfig (hinv : SeedsInv seeds) (hfree : Unseeded seeds ownerId configId) :
    Seeded (seedConfig ownerId configId bundle seeds) ownerId configId bundle := by
  let inserted := seeds.competencies.insertAll (bundle.skills.map fun skill id =>
    ⟨id, ownerId, configId, skill.slug, skill.baseline, skill.monthOneTarget, skill.finalTarget⟩)
  have hskills : SeededSkills { seeds with competencies := inserted.2 } ownerId configId bundle
      inserted.1 := seededSkills_insertAll hfree
  have hkey : inserted.2.Keyed Competency.id := by
    refine hinv.competencies.insertAll ?_
    intro make hmake id
    obtain ⟨skill, -, rfl⟩ := List.mem_map.mp hmake
    rfl
  have hstart : Seeding { seeds with competencies := inserted.2 } ownerId configId bundle
      inserted.1 := by
    refine ⟨⟨hkey, hinv.exercises, hinv.dimensions, hinv.mappings⟩, hskills, ?_⟩
    intro row hrow hown hcfg
    exact absurd ⟨hown, hcfg⟩ (hfree.exercises row hrow)
  obtain ⟨hseeding, hdims⟩ := hstart.exercises_foldl fun _ hexer => hexer
  set seeded := bundle.exerciseTypes.foldl (seedExercise ownerId configId inserted.1)
    { seeds with competencies := inserted.2 }
  have hnoDims : SeededDimensions seeded ownerId configId bundle := by
    rw [SeededDimensions, hdims]
    refine ⟨hinv.dimensions, ?_⟩
    intro row hrow hown hcfg
    exact absurd ⟨hown, hcfg⟩ (hfree.dimensions row hrow)
  obtain ⟨⟨hdimsKey, hdimRows⟩, hcomps, hexercises, hmappings⟩ :=
    hnoDims.rubrics_foldl fun _ hrub => hrub
  have hlast := hseeding.skills.congr hcomps
  refine ⟨?_, ?_, hdimsKey, ?_, ?_, ?_, hdimRows⟩
  · show Serial.Keyed _ (bundle.rubrics.foldl (seedRubric ownerId configId) seeded).competencies
    rw [hcomps]
    exact hseeding.inv.competencies
  · show Serial.Keyed _ (bundle.rubrics.foldl (seedRubric ownerId configId) seeded).exerciseTypes
    rw [hexercises]
    exact hseeding.inv.exercises
  · intro row hrow hown hcfg
    exact (hlast.skill row (hlast.rows_eq row hrow hown hcfg)).2.2
  · intro row hrow other ho hown hcfg hotherOwn hotherCfg hslug
    exact List.inj_on_of_nodup_map hlast.nodup (hlast.rows_eq row hrow hown hcfg)
      (hlast.rows_eq other ho hotherOwn hotherCfg) hslug
  · intro row hrow hown hcfg
    have hb : row ∈ seeded.exerciseTypes.rows := hexercises ▸ hrow
    obtain ⟨exercise, hexer, hrowSeed⟩ := hseeding.exercises row hb hown hcfg
    have hrows : (bundle.rubrics.foldl (seedRubric ownerId configId) seeded).mappings.rows =
        seeded.mappings.rows ++ [] := by
      rw [List.append_nil, hmappings]
    exact ⟨exercise, hexer, hrowSeed.append hcomps hrows (by simp)⟩

end TamForge.Evidence
