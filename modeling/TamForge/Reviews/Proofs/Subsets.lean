import TamForge.Evidence.Proofs.SkillEvents
import TamForge.Reviews.Process

/-!
# The subsets of a review

The reviewer works out which skills an attempt feeds before it builds its
command, and the ledger works them out again from the command and the attempt it
reloads.  Both follow the exercise's mapping under the same conditions, and the
shares of the rubric are strides of it, so the ledger finds nothing to refuse in
them.
-/

namespace TamForge.Reviews

open Agents Evidence Learning Models ProofSupport

variable {dimensions skills slugs : List String} {exercise : ExerciseTypeConfig}
  {output : List (String × Json)} {selector : Option (String × SelectorField)}
  {begun : Begun} {outcome : ReviewOutcome} {lineage : Lineage} {ledger : Ledger} {ownerId : Nat}
  {command : EvidenceEvaluationCommand} {context : EvaluationContext}

/-! ## Strides -/

/-- Every skill has its own share of the dimensions, and together the shares are
all of them. -/
structure Partitions (parts : List (String × List String)) (skills dimensions : List String) :
    Prop where
  keys : parts.map Prod.fst = skills
  nonempty : ∀ part ∈ parts, part.2 ≠ []
  nodup : ∀ part ∈ parts, part.2.Nodup
  disjoint : parts.Pairwise fun left right => left.2.Disjoint right.2
  covers : ∀ dimension, dimension ∈ dimensions ↔ ∃ part ∈ parts, dimension ∈ part.2

variable {i n : Nat}

theorem mem_strided {dimension : String} :
    dimension ∈ strided dimensions i n ↔ ∃ j, dimensions[j]? = some dimension ∧ j % n = i := by
  simp only [strided, List.mem_map, List.mem_filter, decide_eq_true_eq, Prod.exists,
    List.mem_zipIdx_iff_getElem?]
  constructor
  · rintro ⟨_, j, ⟨hj, hmod⟩, rfl⟩
    exact ⟨j, hj, hmod⟩
  · rintro ⟨j, hj, hmod⟩
    exact ⟨dimension, j, ⟨hj, hmod⟩, rfl⟩

theorem strided_sublist (i n : Nat) : (strided dimensions i n).Sublist dimensions := by
  have hfilt := (List.filter_sublist (p := fun item : String × Nat => decide (item.2 % n = i))
    (l := dimensions.zipIdx)).map Prod.fst
  rwa [List.zipIdx_map_fst] at hfilt

theorem strided_disjoint (hnd : dimensions.Nodup) {j : Nat} (hne : i ≠ j) :
    (strided dimensions i n).Disjoint (strided dimensions j n) := by
  intro dimension hi hj
  obtain ⟨k, hk, hki⟩ := mem_strided.mp hi
  obtain ⟨l, hl, hlj⟩ := mem_strided.mp hj
  have hsame : k = l :=
    (List.getElem?_inj (List.getElem?_eq_some_iff.mp hk).1 hnd).mp (hk.trans hl.symm)
  apply hne
  rw [← hki, ← hlj, hsame]

theorem assignDimensions_partitions (hnd : dimensions.Nodup) (hskills : 1 ≤ skills.length)
    (hle : skills.length ≤ dimensions.length) :
    Partitions (assignDimensions dimensions skills) skills dimensions := by
  have hassign : assignDimensions dimensions skills =
      skills.zipIdx.map fun item => (item.1, strided dimensions item.2 skills.length) := by
    have hsome : skills ≠ [] := List.length_pos_iff.mp hskills
    rw [assignDimensions, if_neg]
    rintro (hnil | hlt)
    · exact hsome hnil
    · omega
  rw [hassign]
  refine ⟨?_, ?_, ?_, ?_, ?_⟩
  · rw [List.map_map]
    exact List.zipIdx_map_fst 0 skills
  · intro part hpart
    obtain ⟨⟨skill, i⟩, hitem, rfl⟩ := List.mem_map.mp hpart
    have hi : i < skills.length := by
      have hget := List.mem_zipIdx_iff_getElem?.mp hitem
      exact (List.getElem?_eq_some_iff.mp hget).1
    have hmem : dimensions[i] ∈ strided dimensions i skills.length :=
      mem_strided.mpr ⟨i, List.getElem?_eq_getElem (by omega), Nat.mod_eq_of_lt hi⟩
    exact List.ne_nil_of_mem hmem
  · intro part hpart
    obtain ⟨item, -, rfl⟩ := List.mem_map.mp hpart
    exact hnd.sublist (strided_sublist item.2 skills.length)
  · rw [List.pairwise_map]
    have hindices : skills.zipIdx.Pairwise fun left right => left.2 ≠ right.2 := by
      apply List.pairwise_map.mp
      show (skills.zipIdx.map Prod.snd).Nodup
      rw [List.zipIdx_map_snd]
      exact List.nodup_range'
    exact hindices.imp fun hne => strided_disjoint hnd hne
  · intro dimension
    constructor
    · intro hmem
      obtain ⟨j, hj⟩ := List.mem_iff_getElem?.mp hmem
      have hlt : j % skills.length < skills.length := Nat.mod_lt _ hskills
      refine ⟨_, List.mem_map.mpr ⟨(skills[j % skills.length], j % skills.length), ?_, rfl⟩,
        mem_strided.mpr ⟨j, hj, rfl⟩⟩
      exact List.mem_zipIdx_iff_getElem?.mpr (List.getElem?_eq_getElem hlt)
    · rintro ⟨part, hpart, hmem⟩
      obtain ⟨item, -, rfl⟩ := List.mem_map.mp hpart
      exact (strided_sublist _ _).subset hmem

theorem Partitions.flatMap_nodup {parts : List (String × List String)}
    (h : Partitions parts skills dimensions) : (parts.flatMap Prod.snd).Nodup :=
  List.nodup_flatMap.mpr ⟨h.nodup, h.disjoint⟩

/-- The committed selector is the one the exercise requires, with a value it
allows. -/
def SelectorFits (exercise : ExerciseTypeConfig) (selector : Option (String × SelectorField)) :
    Prop :=
  ∀ selected ∈ selector, exercise.requiredPrecommitField = some selected.2 ∧
    selected.1 ∈ exercise.allowedSelectedCompetencies

theorem committedSelector_ok (h : committedSelector (.object output) = .ok selector) :
    (selector = none → ∀ field : SelectorField, Json.get output field.text = .null) ∧
      ∀ selected ∈ selector, Json.get output selected.2.text = .string selected.1 := by
  simp only [committedSelector, List.foldlM_cons, List.foldlM_nil, bind_ok_iff, addSelector] at h
  obtain ⟨first, hfst, second, hsec, hres⟩ := h
  cases hres
  have hdomain : first = none ∧
        Json.get output SelectorField.domainCompetencySlug.text = .null ∨
      ∃ value, first = some (value, .domainCompetencySlug) ∧
        Json.get output SelectorField.domainCompetencySlug.text = .string value := by
    split at hfst
    · rename_i hnull
      exact Or.inl ⟨(Except.ok.inj hfst).symm, hnull⟩
    · rename_i value hval
      exact Or.inr ⟨value, (Except.ok.inj hfst).symm, hval⟩
    · cases hfst
  split at hsec
  · rename_i hnull
    cases hsec
    rcases hdomain with ⟨rfl, hdomain⟩ | ⟨value, rfl, hdomain⟩
    · refine ⟨fun _ field => ?_, by simp⟩
      cases field with
      | domainCompetencySlug => exact hdomain
      | storyCompetencySlug => exact hnull
    · refine ⟨nofun, ?_⟩
      rintro selected ⟨⟩
      exact hdomain
  · rename_i value hval
    split at hsec
    · cases hsec
    · cases hsec
      refine ⟨nofun, ?_⟩
      rintro selected ⟨⟩
      exact hval
  · cases hsec

theorem allowed_ne_empty {selected : String}
    (h : selected ∈ exercise.allowedSelectedCompetencies) : selected ≠ "" := by
  have hmem : selected ∈
      exercise.allowedDomainCompetencies ++ exercise.allowedStoryCompetencies := by
    unfold ExerciseTypeConfig.allowedSelectedCompetencies at h
    split at h
    · exact List.mem_append_right _ h
    · exact List.mem_append_left _ h
  have hslug := exercise.allowed_valid selected hmem
  rintro rfl
  exact absurd hslug (by decide)

theorem selectedCompetency_eq (h : committedSelector (.object output) = .ok selector)
    (hfits : SelectorFits exercise selector) :
    selectedCompetency exercise output = selector.map Prod.fst := by
  obtain ⟨hnone, hsome⟩ := committedSelector_ok h
  cases hsel : selector with
  | none =>
    cases hfield : exercise.requiredPrecommitField with
    | none => simp [selectedCompetency, hfield]
    | some field => simp [selectedCompetency, hfield, hnone hsel field]
  | some selected =>
    obtain ⟨hfield, hok⟩ := hfits selected hsel
    have hval := hsome selected hsel
    simp [selectedCompetency, hfield, hval, allowed_ne_empty hok]

/-! ## The skills -/

variable {conditionsMet : List ConditionCode} {slug : String} {part : List String}

theorem impactOf_ok {selected : Option String}
    (h : impactOf exercise conditionsMet selected slug = .ok part) :
    ∃ resolved, resolveSkillImpact exercise slug conditionsMet selected selected.isSome =
      .ok resolved ∧ part = if 0 < resolved.weight then [slug] else [] := by
  simp only [impactOf, bind_ok_iff, mapError_ok_iff] at h
  obtain ⟨resolved, hres, hpart⟩ := h
  exact ⟨resolved, hres, (Except.ok.inj hpart).symm⟩

theorem mem_impactOf {selected : Option String} {skill : String}
    (h : impactOf exercise conditionsMet selected slug = .ok part) (hmem : skill ∈ part) :
    skill = slug := by
  obtain ⟨resolved, -, rfl⟩ := impactOf_ok h
  split at hmem
  · exact List.mem_singleton.mp hmem
  · cases hmem

variable {impacts : List (String × SkillImpactResult)}

theorem addImpact_of_impactOf
    (hcom : context.selectorCommittedInAttempt = context.selectedCompetency.isSome)
    (hpart : impactOf context.exercise conditionsMet context.selectedCompetency slug = .ok part)
    (hnew : slug ∉ impacts.map Prod.fst) :
    ∃ after, addImpact context conditionsMet impacts slug = .ok after ∧
      after.map Prod.fst = impacts.map Prod.fst ++ part := by
  obtain ⟨resolved, hres, rfl⟩ := impactOf_ok hpart
  rw [← hcom] at hres
  refine ⟨_, bind_ok_iff.mpr ⟨resolved, mapError_ok_iff.mpr hres, rfl⟩, ?_⟩
  have hset : setItem impacts slug resolved = impacts ++ [(slug, resolved)] := by
    rw [setItem, if_neg]
    intro hany
    simp only [List.any_eq_true, decide_eq_true_eq] at hany
    obtain ⟨imp, himp, hsame⟩ := hany
    exact hnew (List.mem_map.mpr ⟨imp, himp, hsame⟩)
  split
  · rw [hset, List.map_append, List.map_singleton]
  · rw [List.append_nil]

theorem foldlM_addImpact {parts : List (List String)}
    (hcom : context.selectorCommittedInAttempt = context.selectedCompetency.isSome)
    (hparts : slugs.mapM (impactOf context.exercise conditionsMet context.selectedCompetency) =
      .ok parts)
    (hnd : slugs.Nodup) (hfresh : ∀ slug ∈ slugs, slug ∉ impacts.map Prod.fst) :
    ∃ final, slugs.foldlM (addImpact context conditionsMet) impacts = .ok final ∧
      final.map Prod.fst = impacts.map Prod.fst ++ parts.flatten := by
  induction slugs generalizing impacts parts with
  | nil =>
    cases hparts
    exact ⟨impacts, rfl, by simp⟩
  | cons slug rest ih =>
    rw [List.mapM_cons] at hparts
    simp only [bind_ok_iff] at hparts
    obtain ⟨part, hpart, others, hos, hres⟩ := hparts
    cases hres
    obtain ⟨hslug, hrest⟩ := List.nodup_cons.mp hnd
    obtain ⟨after, ha, hkeys⟩ :=
      addImpact_of_impactOf hcom hpart (hfresh slug (List.mem_cons_self ..))
    have hafterNew : ∀ other ∈ rest, other ∉ after.map Prod.fst := by
      intro other ho hmem
      rw [hkeys, List.mem_append] at hmem
      rcases hmem with hold | hnew
      · exact hfresh other (List.mem_cons_of_mem _ ho) hold
      · exact hslug (mem_impactOf hpart hnew ▸ ho)
    obtain ⟨final, hfinal, hall⟩ := ih hos hrest hafterNew
    refine ⟨final, ?_, ?_⟩
    · rw [List.foldlM_cons]
      exact bind_ok_iff.mpr ⟨after, ha, hfinal⟩
    · rw [hall, hkeys, List.flatten_cons, List.append_assoc]

theorem commandSkills_ok {selected : Option String}
    (h : commandSkills exercise conditionsMet selected = .ok skills)
    (hnew : ∀ slug ∈ selected, slug ∉ exercise.impacts.map SkillImpactConfig.skillSlug) :
    ∃ parts, (exercise.impacts.map SkillImpactConfig.skillSlug ++ selected.toList).mapM
      (impactOf exercise conditionsMet selected) = .ok parts ∧ skills = parts.flatten := by
  simp only [commandSkills, bind_ok_iff] at h
  obtain ⟨mapped, hmap, h⟩ := h
  rw [List.mapM_append]
  simp only [bind_ok_iff]
  cases selected with
  | none =>
    cases h
    exact ⟨mapped ++ [], ⟨mapped, hmap, [], rfl, rfl⟩, by rw [List.append_nil]⟩
  | some slug =>
    have hunmapped : slug ∉ mapped.flatten := by
      intro hmem
      obtain ⟨part, hpart, hslug⟩ := List.mem_flatten.mp hmem
      obtain ⟨other, ho, himp⟩ := mapM_ok_mem hmap hpart
      rw [mem_impactOf himp hslug] at hnew
      exact hnew other rfl ho
    simp only [if_neg hunmapped, bind_ok_iff] at h
    obtain ⟨dynamic, hdynamic, hres⟩ := h
    cases hres
    refine ⟨mapped ++ [dynamic], ⟨mapped, hmap, [dynamic], ?_, rfl⟩, ?_⟩
    · rw [Option.toList_some, List.mapM_cons]
      exact bind_ok_iff.mpr ⟨dynamic, hdynamic, rfl⟩
    · rw [List.flatten_append, List.flatten_singleton]

theorem applicableImpacts_of_commandSkills {known : List SkillConfig}
    (hlink : LinkedExercise known context.exercise)
    (hskills : commandSkills context.exercise conditionsMet context.selectedCompetency = .ok skills)
    (hcom : context.selectorCommittedInAttempt = context.selectedCompetency.isSome)
    (hok : ∀ selected ∈ context.selectedCompetency,
      selected ∈ context.exercise.allowedSelectedCompetencies)
    (hknown : ∀ skill ∈ known, skill.slug ∈ context.skills.map PersistedSkill.slug)
    (hval : selectorInvalid context = false) :
    ∃ impacts, applicableImpacts context conditionsMet = .ok impacts ∧
      impacts.map Prod.fst = skills := by
  have hnew : ∀ selected ∈ context.selectedCompetency,
      selected ∉ context.exercise.impacts.map SkillImpactConfig.skillSlug := by
    intro selected hsel
    exact hlink.allowed_disjoint selected (hok selected hsel)
  obtain ⟨parts, hparts, rfl⟩ := commandSkills_ok hskills hnew
  have hnd : (context.exercise.impacts.map SkillImpactConfig.skillSlug ++
      context.selectedCompetency.toList).Nodup := by
    rw [List.nodup_append]
    refine ⟨hlink.impacts_nodup, ?_, ?_⟩
    · cases context.selectedCompetency <;> simp
    · rintro mapped hmap selected hsel rfl
      exact hnew mapped (Option.mem_toList.mp hsel) hmap
  obtain ⟨impacts, himps, hkeys⟩ :=
    @foldlM_addImpact _ _ _ [] _ hcom hparts hnd (by simp)
  rw [List.map_nil, List.nil_append] at hkeys
  refine ⟨impacts, ?_, hkeys⟩
  have hpresent : ∀ imp ∈ impacts, imp.1 ∈ context.skills.map PersistedSkill.slug := by
    intro imp himp
    have hkey : imp.1 ∈ parts.flatten := hkeys ▸ List.mem_map_of_mem himp
    obtain ⟨part, hpart, hmem⟩ := List.mem_flatten.mp hkey
    obtain ⟨slug, hslug, hsrc⟩ := mapM_ok_mem hparts hpart
    rw [mem_impactOf hsrc hmem]
    have hskill : slug ∈ known.map SkillConfig.slug := by
      rcases List.mem_append.mp hslug with hmap | hsel
      · obtain ⟨source, hmember, rfl⟩ := List.mem_map.mp hmap
        exact hlink.impacts_known source hmember
      · exact hlink.allowed_known slug (hok slug (Option.mem_toList.mp hsel))
    obtain ⟨skill, hmember, rfl⟩ := List.mem_map.mp hskill
    exact hknown skill hmember
  have hgrd : raiseFirst [(selectorInvalid context, EvidenceFailure.conflict
      "required precommit selector is missing or invalid")] = .ok () := by
    rw [raiseFirst_eq_ok, List.forall_mem_singleton]
    exact hval
  have hmis : raiseFirst [(!impacts.all fun imp =>
      (context.skills.map PersistedSkill.slug).contains imp.1, EvidenceFailure.conflict
        "mapped skill is absent from immutable configuration")] = .ok () := by
    rw [raiseFirst_eq_ok, List.forall_mem_singleton, Bool.not_eq_false', List.all_eq_true]
    intro imp himp
    exact List.contains_iff_mem.mpr (hpresent imp himp)
  exact bind_ok_iff.mpr ⟨(), hgrd, bind_ok_iff.mpr ⟨impacts, himps,
    bind_ok_iff.mpr ⟨(), hmis, rfl⟩⟩⟩

/-! ## The command and its context -/

/-- The rows from which the ledger reads back what the review works on: the
configuration of its version key, and the attempt with its output. -/
structure ReadsBack (lineage : Lineage) (ownerId : Nat) (begun : Begun) : Prop where
  config : ∃ row, lineage.configs.find? (fun row => row.ownerId = ownerId ∧
    row.versionKey = begun.configVersionKey) = some row ∧ row.payload = .ok begun.bundle
  attempt : ∃ activity selfReview, attemptRow? lineage ownerId begun.loaded.activity.id
    begun.loaded.attempt.id = some (activity, begun.loaded.attempt, selfReview)
  output : Json.get (attemptPayload begun.loaded.attempt) "output" = .object begun.output
  rubric : begun.rubric ∈ begun.bundle.rubrics

structure Reloads (begun : Begun) (exercise : ExerciseTypeConfig)
    (selector : Option (String × SelectorField)) (context : EvaluationContext) : Prop where
  exercise : context.exercise = exercise
  attemptKind : context.attemptKind = begun.loaded.attempt.attemptKind
  selectedCompetency : context.selectedCompetency = selector.map Prod.fst
  selectorField : context.selectorField = selector.map Prod.snd
  committed : context.selectorCommittedInAttempt = selector.isSome
  skills : ∀ skill ∈ begun.bundle.skills, skill.slug ∈ context.skills.map PersistedSkill.slug

variable {evaluatedAt : Instant}

theorem buildEvidenceCommand_ok (h : buildEvidenceCommand begun outcome evaluatedAt = .ok command) :
    ∃ exercise skills, committedExercise begun.loaded begun.bundle = .ok exercise ∧
      commandSkills exercise (commandConditions begun.loaded.attempt
        (selectedCompetency exercise begun.output)) (selectedCompetency exercise begun.output) =
          .ok skills ∧
      (skills ≠ [] → assignDimensions
        (begun.rubric.dimensions.map RubricDimensionConfig.slug) skills ≠ []) ∧
      command = evidenceCommand begun outcome evaluatedAt exercise (assignDimensions
        (begun.rubric.dimensions.map RubricDimensionConfig.slug) skills) := by
  simp only [buildEvidenceCommand, bind_ok_iff] at h
  obtain ⟨exercise, hexer, skills, hskills, _, hassigned, _, -, hcmd⟩ := h
  refine ⟨exercise, skills, hexer, hskills, ?_, (Except.ok.inj hcmd).symm⟩
  intro hsome hnone
  rw [raiseFirst_eq_ok, List.forall_mem_singleton, hnone] at hassigned
  simp [hsome] at hassigned

theorem committedExercise_ok (h : committedExercise begun.loaded begun.bundle = .ok exercise) :
    exercise ∈ begun.bundle.exerciseTypes ∧
      begun.bundle.exercise exercise.slug = some exercise := by
  have hf : ∃ slug, begun.bundle.exercise slug = some exercise := by
    unfold committedExercise at h
    split at h
    · dsimp only at h
      split at h
      · cases h
      · rename_i found hf
        cases h
        exact ⟨_, hf⟩
    · cases h
  obtain ⟨slug, hslug⟩ := hf
  have hsame : exercise.slug = slug := by simpa using List.find?_some hslug
  rw [hsame]
  exact ⟨List.mem_of_find?_eq_some hslug, hslug⟩

theorem attemptParts_ok {att : Learning.Attempt} {taskContext found : Json}
    (h : attemptParts att.originalText = .ok (taskContext, found)) :
    Json.get (attemptPayload att) "output" = found := by
  unfold attemptParts at h
  split at h
  · rename_i fields htext
    split at h
    · rename_i houtput
      cases h
      rw [attemptPayload, htext, Json.get, houtput]
      rfl
    · cases h
  · cases h

theorem loadConfig_bundle {config : CommandConfig} (hreads : ReadsBack lineage ownerId begun)
    (hkey : command.configVersionKey = begun.configVersionKey)
    (h : loadConfig lineage ownerId command = .ok config) : config.bundle = begun.bundle := by
  obtain ⟨row, hrow, hpay⟩ := hreads.config
  rw [← hkey] at hrow
  unfold loadConfig at h
  rw [hrow] at h
  simp only [hpay, bind_ok_iff, mapError_ok_iff] at h
  obtain ⟨bundle, hbundle, h⟩ := h
  cases hbundle
  split at h
  · split at h
    · cases h
      rfl
    · cases h
  · cases h

variable {subsets : List (String × List String)}

theorem loadContext_reloads (hreads : ReadsBack lineage ownerId begun)
    (hexer : committedExercise begun.loaded begun.bundle = .ok exercise)
    (hsel : committedSelector (.object begun.output) = .ok selector)
    (hcmd : command = evidenceCommand begun outcome evaluatedAt exercise subsets)
    (hload : loadContext lineage ledger ownerId command = .ok context) :
    Reloads begun exercise selector context := by
  simp only [loadContext, bind_ok_iff] at hload
  obtain ⟨config, hcfg, hload⟩ := hload
  have hbundle : config.bundle = begun.bundle :=
    loadConfig_bundle hreads (by rw [hcmd]; rfl) hcfg
  obtain ⟨-, -, -, hnamed, -⟩ := loadConfig_ok hcfg
  have hsame : config.exercise = exercise := by
    have hslug : command.exerciseType = exercise.slug := by rw [hcmd]; rfl
    rw [hbundle, hslug, (committedExercise_ok hexer).2] at hnamed
    exact (Option.some.inj hnamed).symm
  obtain ⟨act, selfReview, hrow⟩ := hreads.attempt
  have hids : command.activityId = begun.loaded.activity.id ∧
      command.attemptId = begun.loaded.attempt.id := by rw [hcmd]; exact ⟨rfl, rfl⟩
  rw [hids.1, hids.2, hrow] at hload
  simp only [bind_ok_iff] at hload
  obtain ⟨_, -, ⟨taskContext, found⟩, hparts, _, -, hload⟩ := hload
  split at hload
  · split at hload
    · simp only [bind_ok_iff] at hload
      obtain ⟨_, hchk, read, hread, hcontext⟩ := hload
      cases hcontext
      have hf : found = .object begun.output := by
        rw [← attemptParts_ok hparts, hreads.output]
      rw [hf, hsel] at hread
      cases hread
      refine ⟨hsame, rfl, rfl, rfl, rfl, ?_⟩
      rw [raiseFirst_eq_ok] at hchk
      have hrows := hchk _ (List.mem_cons_self ..)
      simp only [Bool.or_eq_false_iff, Bool.not_eq_false', decide_eq_true_eq] at hrows
      intro skill hskill
      have hmem := hrows.2.2 (List.mem_map_of_mem (hbundle ▸ hskill))
      rw [List.map_map]
      exact hmem
    · cases hload
  · cases hload

/-! ## What the ledger refuses -/

def RefusesSubsets (failure : EvidenceFailure) : Prop :=
  failure = .conflict "skill dimension subsets do not match the applicable mapped skills" ∨
    failure = .invalidRequest "each mapped skill requires its own dimension subset"

theorem prepareDimension_raises (persisted : PersistedDimension) :
    Raises (fun failure => ¬RefusesSubsets failure) (prepareDimension command persisted) := by
  unfold prepareDimension
  split
  · apply raises_error
    simp [RefusesSubsets]
  · split
    · apply raises_error
      rintro (hclash | hreq)
      · cases hclash
      · have hchars := congrArg String.toList (EvidenceFailure.invalidRequest.inj hreq)
        simp [String.toList_append] at hchars
    · exact raises_ok _

theorem scoreInput_raises (slug : String) :
    Raises (fun failure => ¬RefusesSubsets failure) (scoreInput context command slug) := by
  unfold scoreInput
  split
  · split
    · apply raises_error
      simp [RefusesSubsets]
    · split
      · apply raises_error
        simp [RefusesSubsets]
      · split
        · apply raises_error
          simp [RefusesSubsets]
        · exact raises_ok _
  · apply raises_error
    simp [RefusesSubsets]

theorem raises_scoring {α : Type} (res : Except ScoringError α) :
    Raises (fun failure => ¬RefusesSubsets failure)
      (res.mapError fun error => EvidenceFailure.scoring error.message) := by
  apply raises_mapError
  rintro error - (hclash | hreq)
  · cases hclash
  · cases hreq

theorem prepareSkillEvent_raises {imp : String × SkillImpactResult}
    (hsub : imp.1 ∈ command.skillDimensionSubsets.map SkillDimensionSubsetInput.skillSlug) :
    Raises (fun failure => ¬RefusesSubsets failure) (prepareSkillEvent context command imp) := by
  unfold prepareSkillEvent
  split
  · split
    · apply (raises_mapM fun slug _ => scoreInput_raises slug).bind
      intro inputs _
      apply (raises_scoring _).bind
      intro performance _
      apply (raises_scoring _).bind
      intro wt _
      exact raises_ok _
    · apply raises_error
      simp [RefusesSubsets]
  · rename_i hnone
    obtain ⟨subset, hmem, hsame⟩ := List.mem_map.mp hsub
    have hfind := Option.eq_none_iff_forall_ne_some.mpr hnone
    rw [List.find?_eq_none] at hfind
    exact absurd (decide_eq_true hsame) (hfind subset hmem)

theorem applicableImpacts_raises (conditionsMet : List ConditionCode) :
    Raises (fun failure => ¬RefusesSubsets failure) (applicableImpacts context conditionsMet) := by
  unfold applicableImpacts
  refine Raises.guard (by simp [RefusesSubsets]) ?_
  apply Raises.bind
  · apply raises_foldlM
    intro before slug
    apply (raises_scoring _).bind
    intro resolved _
    exact raises_ok _
  · intro impacts _
    exact Raises.guard (by simp [RefusesSubsets]) (raises_ok _)

theorem portfolioComponents_raises (rows : List PreparedDimensionScore) :
    Raises (fun failure => ¬RefusesSubsets failure) (portfolioComponents context rows) := by
  unfold portfolioComponents
  split
  · have hrows : Raises (fun failure => ¬RefusesSubsets failure)
        (rows.mapM portfolioComponent) := by
      apply raises_mapM
      intro row _
      unfold portfolioComponent
      split
      · apply raises_error
        simp [RefusesSubsets]
      · exact raises_ok _
    cases hcomponents : rows.mapM portfolioComponent with
    | error failure => exact raises_error (hrows failure hcomponents)
    | ok components => exact raises_ok _
  · exact raises_ok _

theorem prepareEvaluation_raises
    (hsubsets : ∀ impacts, applicableImpacts context (conditions context command) = .ok impacts →
      raiseFirst (subsetChecks command (expectedImpacts context impacts)) = .ok ()) :
    Raises (fun failure => ¬RefusesSubsets failure) (prepareEvaluation context command) := by
  unfold prepareEvaluation
  refine Raises.guard (by simp [lineageChecks, RefusesSubsets]) ?_
  refine Raises.guard (by simp [RefusesSubsets]) ?_
  apply (raises_mapM fun persisted _ => prepareDimension_raises persisted).bind
  intro rows _
  apply (applicableImpacts_raises _).bind
  intro impacts himps
  have hpassed := hsubsets impacts himps
  dsimp only
  rw [hpassed]
  refine (raises_ok ()).bind fun _ _ => ?_
  refine (raises_mapM fun imp himp => ?_).bind fun evs _ => ?_
  · apply prepareSkillEvent_raises
    rw [raiseFirst_eq_ok] at hpassed
    have hkeys := hpassed _ (List.mem_cons_self ..)
    simp only [Bool.not_eq_false', sameKeys, decide_eq_true_eq] at hkeys
    exact hkeys.2 (List.mem_map_of_mem himp)
  · apply (portfolioComponents_raises rows).bind
    intro comps _
    exact raises_ok _

theorem Reloads.selectorInvalid (h : Reloads begun exercise selector context)
    (hfits : SelectorFits exercise selector) :
    Evidence.selectorInvalid context =
      (exercise.requiredPrecommitField.isSome && selector.isNone) := by
  cases hsel : selector with
  | none => simp [Evidence.selectorInvalid, h.exercise, h.committed, hsel]
  | some selected =>
    obtain ⟨hfield, hok⟩ := hfits selected hsel
    simp [Evidence.selectorInvalid, h.exercise, h.committed, h.selectorField,
      h.selectedCompetency, hsel, hfield, hok]

theorem Reloads.conditions (h : Reloads begun exercise selector context)
    (hcmd : command = evidenceCommand begun outcome evaluatedAt exercise subsets) :
    Evidence.conditions context command =
      commandConditions begun.loaded.attempt (selector.map Prod.fst) := by
  rw [hcmd]
  simp [Evidence.conditions, commandConditions, evidenceCommand, h.committed]

theorem subsetChecks_pass (hkind : context.attemptKind ≠ .attemptB)
    (hkeys : impacts.map Prod.fst =
      command.skillDimensionSubsets.map SkillDimensionSubsetInput.skillSlug)
    (hnd : (command.skillDimensionSubsets.flatMap
      SkillDimensionSubsetInput.dimensionSlugs).Nodup)
    : raiseFirst (subsetChecks command (expectedImpacts context impacts)) = .ok () := by
  rw [expectedImpacts, if_neg hkind, raiseFirst_eq_ok, subsetChecks, hkeys]
  simp [sameKeys, hnd]

end TamForge.Reviews
