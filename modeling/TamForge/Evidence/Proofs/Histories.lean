import TamForge.Evidence.Proofs.Snapshots
import TamForge.ProofSupport.Keys
import TamForge.ProofSupport.Run

/-!
# Histories of evaluations

What every history of recorded evaluations keeps, and what recording can then
still fail with.  Two constants of the validators are also parameters of the
formula, and the trend of a portfolio score is looked up by the version of the
formula; a configuration has to agree with all three.
-/

namespace TamForge.Evidence

open Learning Models ProofSupport ProofSupport.Decimals

variable {lineage : Lineage} {ledger : Ledger} {now : Instant} {ownerId : Nat}
  {command : EvidenceEvaluationCommand} {context : EvaluationContext}
  {prepared : PreparedEvaluation} {key : String} {configs : List ConfigSeedVersion}

/-! ## What loading and preparing raise -/

def LookupFailure : EvidenceFailure → Prop
  | .notFound _ | .conflict _ | .invalidRequest _ | .attribute _ => True
  | .storageUnavailable _ | .scoring _ | .estimate _ | .portfolio _ | .contract _
  | .assertion _ => False

theorem loadConfig_raises : Raises LookupFailure (loadConfig lineage ownerId command) := by
  unfold loadConfig
  split
  · apply Raises.bind
    · exact raises_mapError fun _ _ => trivial
    · intro bundle _
      split
      · split
        · exact raises_ok _
        · exact raises_error trivial
      · exact raises_error trivial
  · exact raises_error trivial

theorem attemptParts_raises (text : Option JsonText) :
    Raises LookupFailure (attemptParts text) := by
  unfold attemptParts
  split
  · split
    · exact raises_ok _
    · exact raises_error trivial
  · exact raises_error trivial

theorem checkTaskContext_raises (taskContext : Json) :
    Raises LookupFailure (checkTaskContext taskContext command) := by
  unfold checkTaskContext
  split
  · apply raises_raiseFirst
    simp [LookupFailure]
  · exact raises_error trivial

theorem committedSelector_raises (output : Json) :
    Raises LookupFailure (committedSelector output) := by
  apply raises_foldlM
  intro found field
  unfold addSelector
  split
  · split
    · exact raises_ok _
    · split
      · exact raises_error trivial
      · exact raises_ok _
    · exact raises_error trivial
  · exact raises_ok _

theorem loadContext_raises : Raises LookupFailure (loadContext lineage ledger ownerId command) := by
  refine Raises.bind loadConfig_raises fun config _ => ?_
  split
  · refine Raises.guard (by simp [LookupFailure]) ?_
    refine Raises.bind (attemptParts_raises _) fun parts _ => ?_
    refine Raises.bind (checkTaskContext_raises _) fun _ _ => ?_
    dsimp only
    split
    · split
      · refine Raises.guard (by simp [LookupFailure]) ?_
        refine Raises.bind (committedSelector_raises _) fun selector _ => ?_
        exact raises_ok _
      · exact raises_error trivial
    · exact raises_error trivial
  · exact raises_error trivial

def PreparationFailure : EvidenceFailure → Prop
  | .conflict _ | .invalidRequest _ | .scoring _ => True
  | .notFound _ | .storageUnavailable _ | .estimate _ | .portfolio _ | .contract _ | .attribute _
  | .assertion _ => False

theorem applicableImpacts_raises (conditionsMet : List ConditionCode) :
    Raises PreparationFailure (applicableImpacts context conditionsMet) := by
  refine Raises.guard (by simp [PreparationFailure]) ?_
  refine Raises.bind (raises_foldlM _ ?_) ?_
  · intro impacts slug
    exact Raises.bind (raises_mapError fun _ _ => trivial) fun _ _ => raises_ok _
  · intro impacts _
    exact Raises.guard (by simp [PreparationFailure]) (raises_ok _)

theorem prepareDimension_raises (persisted : PersistedDimension) :
    Raises PreparationFailure (prepareDimension command persisted) := by
  unfold prepareDimension
  split
  · exact raises_error trivial
  · split
    · exact raises_error trivial
    · exact raises_ok _

theorem scoreInput_raises (slug : String) :
    Raises PreparationFailure (scoreInput context command slug) := by
  unfold scoreInput
  split
  · split
    · exact raises_error trivial
    · split
      · exact raises_error trivial
      · split
        · exact raises_error trivial
        · exact raises_ok _
  · exact raises_error trivial

theorem prepareSkillEvent_raises (imp : String × SkillImpactResult) :
    Raises PreparationFailure (prepareSkillEvent context command imp) := by
  unfold prepareSkillEvent
  split
  · split
    · refine Raises.bind (raises_mapM fun slug _ => scoreInput_raises slug) fun inputs _ => ?_
      refine Raises.bind (raises_mapError fun _ _ => trivial) fun performance _ => ?_
      refine Raises.bind (raises_mapError fun _ _ => trivial) fun wt _ => ?_
      exact raises_ok _
    · exact raises_error trivial
  · exact raises_error trivial

theorem portfolioComponents_raises (dims : List PreparedDimensionScore) :
    Raises PreparationFailure (portfolioComponents context dims) := by
  unfold portfolioComponents
  split
  · have hloop : Raises PreparationFailure (dims.mapM portfolioComponent) := by
      apply raises_mapM
      intro dimension _
      unfold portfolioComponent
      split
      · exact raises_error trivial
      · exact raises_ok _
    intro failure hfail
    cases hscores : dims.mapM portfolioComponent with
    | error error =>
      rw [hscores] at hfail
      cases hfail
      exact hloop _ hscores
    | ok scores =>
      rw [hscores] at hfail
      cases hfail
  · exact raises_ok _

theorem prepareEvaluation_raises : Raises PreparationFailure (prepareEvaluation context command) := by
  refine Raises.guard (by simp [lineageChecks, PreparationFailure]) ?_
  refine Raises.guard (by simp [PreparationFailure]) ?_
  refine Raises.bind (raises_mapM fun persisted _ => prepareDimension_raises persisted) fun dims _ => ?_
  refine Raises.bind (applicableImpacts_raises _) fun impacts _ => ?_
  refine Raises.guard (by simp [subsetChecks, PreparationFailure]) ?_
  refine Raises.bind (raises_mapM fun imp _ => prepareSkillEvent_raises imp) fun evs _ => ?_
  refine Raises.bind (portfolioComponents_raises dims) fun comps _ => ?_
  exact raises_ok _

/-! ## Histories -/

def StoredUnder (configs : List ConfigSeedVersion) (event : SkillEvidenceEvent) : Prop :=
  ∃ config ∈ configs, ∃ bundle, config.payload = .ok bundle ∧ config.ownerId = event.ownerId ∧
    config.id = event.configSeedVersionId ∧ StoredEvent bundle.formula event

structure History (configs : List ConfigSeedVersion) (ledger : Ledger) : Prop where
  sound : ∀ lineage : Lineage, lineage.configs = configs → Sound lineage ledger
  unique : UniqueTypes ledger.seeds
  portfolioScores : ledger.portfolioScores.Keyed PortfolioJudgmentScore.id
  stored : ∀ event ∈ ledger.events.rows, StoredUnder configs event

variable {bundle : ConfigBundle} {skillId : Nat} {version : String}

theorem History.storedEvents {config : ConfigSeedVersion} (h : History configs ledger)
    (hkeys : (configs.map ConfigSeedVersion.id).Nodup) (hcfg : config ∈ configs)
    (hpay : config.payload = .ok bundle) :
    ∀ row ∈ ledger.events.rows, row.Of ownerId config.id skillId version →
      StoredEvent bundle.formula row := by
  intro row hrow hof
  obtain ⟨other, ho, found, hf, -, hid, hsto⟩ := h.stored row hrow
  have hsame : other = config := List.inj_on_of_nodup_map hkeys ho hcfg (hid.trans hof.2.1)
  rw [hsame, hpay] at hf
  cases hf
  exact hsto

variable {formula : FormulaConfig}

theorem factorsOf_product_nonneg {imp : Rat} (h : 0 ≤ imp) :
    0 ≤ (factorsOf formula command imp).product := by
  have hmode : 0 ≤ (factorsOf formula command imp).practiceMode := by
    unfold factorsOf
    dsimp only
    split
    · exact le_refl 0
    · rename_i hmode
      exact (formula.practiceMode_factor _ hmode).1
  have hassistance := (formula.assistance_factor command.assistance).1
  have hevaluator := (formula.evaluator_factor command.evaluator).1
  have hdifficulty := (formula.difficulty_factor command.difficulty).1
  exact mul_nonneg (mul_nonneg (mul_nonneg (mul_nonneg h hmode) hassistance) hevaluator) hdifficulty

theorem storedEvent_of_prepared {imp : String × SkillImpactResult} {event : PreparedSkillEvent}
    {evaluation : RubricEvaluation} {items : List ScoreItem} {id : Nat}
    (hev : prepareSkillEvent context command imp = .ok event) :
    StoredEvent context.formula
      (newSkillEvent ownerId evaluation prepared now event items id) := by
  obtain ⟨subset, skill, inputs, hmakes⟩ := prepareSkillEvent_ok hev
  obtain ⟨-, -, -, hscoreNonneg, hscoreLe⟩ := calculatePerformanceScore_ok hmakes.performance
  obtain ⟨-, -, heffective, -⟩ := calculateEffectiveWeight_ok hmakes.weight
  have himp : 0 ≤ imp.2.weight := by
    have hwt := hmakes.weight
    unfold calculateEffectiveWeight at hwt
    split at hwt
    · cases hwt
    · rename_i hbd
      exact (not_not.mp hbd).1
  have huncapped : 0 ≤ uncappedWeight context.formula command imp.2.weight :=
    (hasPlaces_zero 6).le_quantize (factorsOf_product_nonneg himp)
  have hwt : (newSkillEvent ownerId evaluation prepared now event items id).effectiveWeight =
      min (uncappedWeight context.formula command imp.2.weight)
        context.formula.maximumEffectiveWeightPerEvent := heffective
  refine ⟨hscoreNonneg, hscoreLe, ?_, ?_, ?_⟩
  · rw [hwt]
    exact le_min huncapped context.formula.maximum_pos.le
  · rw [hwt]
    exact min_le_right _ _
  · rw [hwt]
    rcases min_choice (uncappedWeight context.formula command imp.2.weight)
      context.formula.maximumEffectiveWeightPerEvent with hmin | hmin
    · rw [hmin]
      exact hasPlaces_quantize 6 _
    · rw [hmin]
      exact context.formula.maximum_places

/-- The events that `_save_skill_events` appends. -/
theorem saveSkillEvents_rows {evaluation : RubricEvaluation} {scs : List RubricDimensionScore}
    {events : List SkillEvidenceEvent} {after : Ledger}
    (h : saveSkillEvents lineage ledger ownerId evaluation scs prepared now =
      .ok (events, after)) :
    ∃ pending, prepared.skillEvents.mapM
        (pendingSkillEvent ownerId evaluation scs prepared now) = .ok pending ∧
      events = (ledger.events.insertAll pending).1 ∧
      after = { ledger with events := (ledger.events.insertAll pending).2 } := by
  simp only [saveSkillEvents, bind_ok_iff] at h
  obtain ⟨pending, hpend, _, -, _, -, h⟩ := h
  cases h
  exact ⟨pending, hpend, rfl, rfl⟩

theorem pendingSkillEvent_ok {evaluation : RubricEvaluation} {scs : List RubricDimensionScore}
    {item : PreparedSkillEvent} {row : Nat → SkillEvidenceEvent}
    (h : pendingSkillEvent ownerId evaluation scs prepared now item = .ok row) :
    ∃ items, item.dimensionSlugs.mapM (scoreItem prepared scs) = .ok items ∧
      row = newSkillEvent ownerId evaluation prepared now item items := by
  simp only [pendingSkillEvent, bind_ok_iff] at h
  obtain ⟨items, hitems, h⟩ := h
  cases h
  exact ⟨items, hitems, rfl⟩

/-! ### Each table in turn -/

section Appending

variable {after : Ledger} {evaluation : RubricEvaluation}

theorem History.afterEvaluation (h : History configs ledger)
    (hsave : saveEvaluation ledger ownerId prepared now = .ok (evaluation, after)) :
    History configs after := by
  simp only [saveEvaluation, bind_ok_iff] at hsave
  obtain ⟨_, -, hsave⟩ := hsave
  cases hsave
  refine ⟨?_, h.unique, h.portfolioScores, h.stored⟩
  intro lineage hcfgs
  have hsound := h.sound lineage hcfgs
  exact ⟨hsound.seeded, hsound.evaluations.append rfl, hsound.dimensionScores, hsound.events⟩

theorem History.afterDimensionScores {scs : List RubricDimensionScore} (h : History configs ledger)
    (hsave : saveDimensionScores ledger ownerId evaluation prepared now = .ok (scs, after)) :
    History configs after := by
  obtain ⟨-, rfl⟩ := saveDimensionScores_rows hsave
  refine ⟨?_, h.unique, h.portfolioScores, h.stored⟩
  intro lineage hcfgs
  have hsound := h.sound lineage hcfgs
  refine ⟨hsound.seeded, hsound.evaluations, ?_, hsound.events⟩
  apply hsound.dimensionScores.insertAll
  intro make hmake id
  obtain ⟨dimension, -, rfl⟩ := List.mem_map.mp hmake
  rfl

theorem History.afterSkillEvents {config : ConfigSeedVersion} {scs : List RubricDimensionScore}
    {evs : List SkillEvidenceEvent} (h : History configs ledger) (hcfg : config ∈ configs)
    (hpay : config.payload = .ok bundle) (hown : config.ownerId = ownerId)
    (hid : config.id = context.configSeedVersionId) (hform : context.formula = bundle.formula)
    (hprep : prepareEvaluation context command = .ok prepared)
    (hsave : saveSkillEvents lineage ledger ownerId evaluation scs prepared now =
      .ok (evs, after))
    : History configs after := by
  obtain ⟨pending, hpend, -, rfl⟩ := saveSkillEvents_rows hsave
  obtain ⟨dims, impacts, skillEvents, components, hpreps, rfl⟩ :=
    prepareEvaluation_ok hprep
  have hrows : ∀ make ∈ pending, ∃ imp event items, prepareSkillEvent context command imp =
      .ok event ∧ make = newSkillEvent ownerId evaluation
        (.of context command dims skillEvents components) now event items := by
    intro make hmake
    obtain ⟨event, hev, hmade⟩ := mapM_ok_mem hpend hmake
    obtain ⟨items, -, rfl⟩ := pendingSkillEvent_ok hmade
    obtain ⟨imp, -, himp⟩ := mapM_ok_mem hpreps.events_ok hev
    exact ⟨imp, event, items, himp, rfl⟩
  refine ⟨?_, h.unique, h.portfolioScores, ?_⟩
  · intro lineage hcfgs
    have hsound := h.sound lineage hcfgs
    refine ⟨hsound.seeded, hsound.evaluations, hsound.dimensionScores, ?_⟩
    apply hsound.events.insertAll
    intro make hmake id
    obtain ⟨imp, event, items, -, rfl⟩ := hrows make hmake
    rfl
  · intro event hev
    have hmem : event ∈ ledger.events.rows ++ (ledger.events.insertAll pending).1 := by
      rw [← Serial.insertAll_rows]
      exact hev
    rcases List.mem_append.mp hmem with hold | hnew
    · exact h.stored event hold
    · obtain ⟨make, hmake, id, rfl⟩ := Serial.mem_insertAll hnew
      obtain ⟨imp, prepared, items, hmade, rfl⟩ := hrows make hmake
      have hsto : StoredEvent context.formula (newSkillEvent ownerId evaluation
          (.of context command dims skillEvents components) now prepared items id) :=
        storedEvent_of_prepared hmade
      rw [hform] at hsto
      exact ⟨config, hcfg, bundle, hpay, hown, hid, hsto⟩

theorem History.afterSnapshots (h : History configs ledger) (table : Serial SkillSnapshot) :
    History configs { ledger with snapshots := table } := by
  refine ⟨?_, h.unique, h.portfolioScores, h.stored⟩
  intro lineage hcfgs
  have hsound := h.sound lineage hcfgs
  exact ⟨hsound.seeded, hsound.evaluations, hsound.dimensionScores, hsound.events⟩

theorem History.afterPortfolioScore {id : Option Nat} (h : History configs ledger)
    (hsave : savePortfolioScore ledger ownerId evaluation prepared now = .ok (id, after)) :
    History configs after := by
  have hsame : ∀ table, table.Keyed PortfolioJudgmentScore.id →
      History configs { ledger with portfolioScores := table } := by
    intro table htable
    refine ⟨?_, h.unique, htable, h.stored⟩
    intro lineage hcfgs
    have hsound := h.sound lineage hcfgs
    exact ⟨hsound.seeded, hsound.evaluations, hsound.dimensionScores, hsound.events⟩
  unfold savePortfolioScore at hsave
  split at hsave
  · simp only [bind_ok_iff] at hsave
    obtain ⟨scored, -, _, -, _, -, _, -, _, -, _, -, _, -, _, -, _, -, _, -, hsave⟩ := hsave
    cases hsave
    exact hsame _ (h.portfolioScores.insert fun _ => rfl)
  · cases hsave
    exact h

end Appending

theorem History.record {after : Ledger} {res : RecordEvaluationResponse}
    (h : History configs ledger) (hcfgs : lineage.configs = configs)
    (hrec : record lineage ledger now ownerId command key = .ok (res, after)) :
    History configs after := by
  simp only [Evidence.record, recordAtomic, bind_ok_iff] at hrec
  obtain ⟨_, -, _, -, hrec⟩ := hrec
  split at hrec
  · simp only [bind_ok_iff] at hrec
    obtain ⟨_, -, hrec⟩ := hrec
    cases hrec
    exact h
  · simp only [bind_ok_iff] at hrec
    obtain ⟨_, -, context, hload, prepared, hprep, ⟨saved, appended⟩, hsaved, hrec⟩ := hrec
    cases hrec
    obtain ⟨config, bundle, activity, attempt, exercise, hloads⟩ := loadContext_ok hload
    simp only [saveAll, bind_ok_iff] at hsaved
    obtain ⟨⟨evaluation, first⟩, heval, ⟨scores, second⟩, hscores, ⟨events, third⟩, hevs,
      ⟨snapshotIds, fourth⟩, hsnapshots, ⟨portfolioId, fifth⟩, hportfolio, hsaved⟩ := hsaved
    cases hsaved
    have hmem : config ∈ configs := by
      rw [← hcfgs]
      exact hloads.config_mem
    have hthird := ((h.afterEvaluation heval).afterDimensionScores hscores).afterSkillEvents
      hmem hloads.payload hloads.config_owner hloads.config_id.symm hloads.formula hprep hevs
    obtain ⟨table, rfl⟩ := saveSnapshots_ok hsnapshots
    have hlast := (hthird.afterSnapshots table).afterPortfolioScore hportfolio
    refine ⟨?_, hlast.unique, hlast.portfolioScores, hlast.stored⟩
    intro lineage hlin
    have hsound := hlast.sound lineage hlin
    exact ⟨hsound.seeded, hsound.evaluations, hsound.dimensionScores, hsound.events⟩

def FormulaFailure (failure : EvidenceFailure) : Prop :=
  failure = .contract "structured evidence payload is invalid or too large" ∨
    failure = .contract "snapshot estimate is not reproducible" ∨
    failure = .portfolio "unknown portfolio formula version"

structure Usable (formula : FormulaConfig) : Prop where
  prior : formula.priorWeight = 2
  window : formula.latestQualifyingEvents ≤ 24
  version : formula.version = "seed-v1"

theorem not_formulaFailure_contract {message : String}
    (hpay : message ≠ "structured evidence payload is invalid or too large")
    (hestimate : message ≠ "snapshot estimate is not reproducible") :
    ¬FormulaFailure (.contract message) := by
  rintro (h | h | h)
  · exact hpay (EvidenceFailure.contract.inj h)
  · exact hestimate (EvidenceFailure.contract.inj h)
  · cases h

theorem stored_raises (accepted : Bool) : Raises (¬FormulaFailure ·) (stored accepted) := by
  apply raises_raiseFirst
  simp [FormulaFailure]

theorem pendingSkillEvent_raises {evaluation : RubricEvaluation}
    {scs : List RubricDimensionScore} (item : PreparedSkillEvent) :
    Raises (¬FormulaFailure ·)
      (pendingSkillEvent ownerId evaluation scs prepared now item) := by
  refine Raises.bind ?_ fun _ _ => raises_ok _
  apply raises_mapM
  intro slug _
  unfold scoreItem
  split
  · exact raises_error (by simp [FormulaFailure])
  · split
    · exact raises_ok _
    · exact raises_error (by simp [FormulaFailure])

theorem validateSkillEvidenceEvent_raises {tgt : SkillEvidenceEvent}
    (hpay : structuredPayload (scoreManifestValid tgt.rawDimensionScores &&
      tgt.explanation.valid) = .ok ()) :
    Raises (fun error => ¬FormulaFailure (.contract error.message))
      (validateSkillEvidenceEvent lineage ledger tgt) := by
  rw [validateSkillEvidenceEvent, hpay]
  show Raises _ (raiseFirst _ >>= fun _ => _)
  refine Raises.guard (by simp [reproducibleChecks, FormulaFailure]) ?_
  split
  · refine Raises.guard (by simp [provenanceChecks, FormulaFailure]) ?_
    unfold validateQualificationReason
    dsimp only
    split
    · refine Raises.bind (raises_ok _) fun _ _ => ?_
      apply raises_raiseFirst
      simp [FormulaFailure]
    · refine Raises.bind (raises_error (by simp [FormulaFailure])) fun _ _ => ?_
      apply raises_raiseFirst
      simp [FormulaFailure]
    · refine Raises.bind (raises_ok _) fun _ _ => ?_
      apply raises_raiseFirst
      simp [FormulaFailure]
  · exact raises_error (by simp [FormulaFailure])

theorem saveSkillEvents_raises {evaluation : RubricEvaluation} {middle after : Ledger}
    {scs : List RubricDimensionScore} (hsound : Sound lineage ledger)
    (hcmd : checkCommand command = true)
    (hload : loadContext lineage ledger ownerId command = .ok context)
    (hprep : prepareEvaluation context command = .ok prepared)
    (heval : saveEvaluation ledger ownerId prepared now = .ok (evaluation, middle))
    (hscores : saveDimensionScores middle ownerId evaluation prepared now = .ok (scs, after)) :
    Raises (¬FormulaFailure ·)
      (saveSkillEvents lineage after ownerId evaluation scs prepared now) := by
  obtain ⟨-, rfl⟩ := saved_of_saves hsound heval hscores
  obtain ⟨dims, impacts, events, components, hpreps, rfl⟩ := prepareEvaluation_ok hprep
  refine Raises.bind (raises_mapM fun item _ => pendingSkillEvent_raises item) ?_
  intro pending hpend
  refine Raises.bind (raises_mapError (raises_forM ?_)) fun _ _ =>
    Raises.bind (stored_raises _) fun _ _ => raises_ok _
  intro make hmake
  obtain ⟨event, hev, hmade⟩ := mapM_ok_mem hpend hmake
  obtain ⟨items, hitems, rfl⟩ := pendingSkillEvent_ok hmade
  obtain ⟨imp, -, himp⟩ := mapM_ok_mem hpreps.events_ok hev
  obtain ⟨_, _, _, terms, -, -, -, -, hterms, hpay⟩ :=
    event_items evaluation now hsound hcmd hload hpreps himp
  rw [hitems] at hterms
  cases hterms
  exact validateSkillEvidenceEvent_raises hpay

theorem estimateSkill_ok {baseline monthOne final : Rat} {evidence : List SkillEvidence}
    {asOf : Instant} {estimate : SkillEstimateResult}
    (h : estimateSkill baseline monthOne final evidence formula asOf = .ok estimate) :
    estimate = estimateOf baseline monthOne final evidence formula asOf := by
  simp only [estimateSkill, bind_ok_iff] at h
  obtain ⟨_, -, h⟩ := h
  exact (Except.ok.inj h).symm

theorem saveSnapshot_raises {config : ConfigSeedVersion} (h : History configs ledger)
    (hkeys : (configs.map ConfigSeedVersion.id).Nodup) (hcfg : config ∈ configs)
    (hpay : config.payload = .ok bundle) (hown : config.ownerId = ownerId)
    (hid : prepared.configSeedVersionId = config.id) (hform : prepared.formula = bundle.formula)
    (husable : Usable bundle.formula) (hcfgs : lineage.configs = configs) :
    Raises (¬FormulaFailure ·) (saveSnapshot lineage ownerId prepared now ledger skillId) := by
  have hsound := h.sound lineage hcfgs
  have hmem : config ∈ lineage.configs := by
    rw [hcfgs]
    exact hcfg
  have hseed := hsound.seeded config hmem bundle hpay
  rw [hown, ← hid] at hseed
  unfold saveSnapshot
  split
  · rename_i skill hskill
    have hskillKeys := List.find?_some hskill
    simp only [decide_eq_true_eq] at hskillKeys
    obtain ⟨hskillOwn, hskillCfg, rfl⟩ := hskillKeys
    have hsto : ∀ row ∈ ledger.events.rows, row.Of ownerId prepared.configSeedVersionId skill.id
        prepared.formula.version → StoredEvent prepared.formula row := by
      rw [hid, hform]
      exact h.storedEvents hkeys hcfg hpay
    obtain ⟨read, hread, hreads⟩ := skillEvidence_reads lineage hseed hsound.events hsto
    refine Raises.bind (raises_mapError fun _ _ => by simp [FormulaFailure]) fun evidence hevi => ?_
    rw [mapError_ok_iff, hread] at hevi
    cases hevi
    refine Raises.bind (raises_mapError fun _ _ => by simp [FormulaFailure]) fun estimate hestimate => ?_
    rw [mapError_ok_iff] at hestimate
    rw [estimateSkill_ok hestimate]
    refine Raises.bind (raises_mapError ?_) fun _ _ =>
      Raises.bind (stored_raises _) fun _ _ => raises_ok _
    have hwtd := hreads.weighed hsound.events hsto
    have hprior : prepared.formula.priorWeight = 2 := by
      rw [hform]
      exact husable.prior
    have hwin : prepared.formula.latestQualifyingEvents ≤ 24 := by
      rw [hform]
      exact husable.window
    intro error herr
    by_cases hdiscounts : DiscountsCount prepared.formula
        (window read prepared.formula prepared.evaluatedAt)
    · have hacc := snapshot_accepted now (nextSequence ledger ownerId skill.id
        prepared.formula.version (date prepared.evaluatedAt)) hreads hwtd hsound.events hseed
        h.unique (List.mem_of_find?_eq_some hskill) hskillOwn hskillCfg hprior hwin hdiscounts
      rw [snapshotOf, herr] at hacc
      cases hacc
    · have href := snapshot_raises now (nextSequence ledger ownerId skill.id
        prepared.formula.version (date prepared.evaluatedAt)) hreads hwtd hsound.events hseed
        (List.mem_of_find?_eq_some hskill) hskillOwn hskillCfg hwin hdiscounts
      rw [snapshotOf, herr] at href
      cases href
      exact not_formulaFailure_contract (by decide) (by decide)
  · exact raises_error (by simp [FormulaFailure])

theorem saveSnapshots_raises {config : ConfigSeedVersion} {skillIds : List Nat}
    (h : History configs ledger) (hkeys : (configs.map ConfigSeedVersion.id).Nodup)
    (hcfg : config ∈ configs) (hpay : config.payload = .ok bundle)
    (hown : config.ownerId = ownerId) (hid : prepared.configSeedVersionId = config.id)
    (hform : prepared.formula = bundle.formula) (husable : Usable bundle.formula)
    (hcfgs : lineage.configs = configs) :
    Raises (¬FormulaFailure ·)
      (saveSnapshots lineage ownerId prepared now ledger skillIds) := by
  induction skillIds generalizing ledger with
  | nil => exact raises_ok _
  | cons skillId rest ih =>
    refine Raises.bind (saveSnapshot_raises h hkeys hcfg hpay hown hid hform husable
      hcfgs) ?_
    intro saved hsaved
    obtain ⟨snapshot, after⟩ := saved
    obtain ⟨table, rfl⟩ := saveSnapshot_ok hsaved
    exact Raises.bind (ih (h.afterSnapshots table)) fun _ _ => raises_ok _

/-! ### Portfolio scores -/

theorem sum_eq_length_of_ones {vals : List Rat} (h : ∀ value ∈ vals, value = 1) :
    vals.sum = vals.length := by
  induction vals with
  | nil => rfl
  | cons value rest ih =>
    rw [List.sum_cons, h value (by simp), ih fun other ho => h other (by simp [ho]),
      List.length_cons]
    push_cast
    ring

theorem weightedAverage_ones {evs : List TrendEvent} (hne : evs ≠ [])
    (h : ∀ event ∈ evs, event.effectiveWeight = 1) : weightedAverage evs ≠ none := by
  have hsum : (evs.map TrendEvent.effectiveWeight).sum = evs.length := by
    rw [sum_eq_length_of_ones, List.length_map]
    intro value hval
    obtain ⟨event, hev, rfl⟩ := List.mem_map.mp hval
    exact h event hev
  have hpos : (0 : Rat) < evs.length := by
    exact_mod_cast List.length_pos_iff.mpr hne
  unfold weightedAverage
  dsimp only
  rw [hsum, if_neg hpos.not_ge]
  simp

variable {rules : TrendRules}

theorem length_lt_of_insufficient {evs : List TrendEvent}
    (hones : ∀ event ∈ evs, event.effectiveWeight = 1)
    (h : (calculateTrend evs rules).code = .insufficientEvidence) :
    evs.length < rules.recentEventCount + rules.precedingEventCount := by
  have hperm := sortedBy_perm (fun event : TrendEvent => (event.occurredAt, event.eventId)) evs
  set ordered := sortedBy (fun event : TrendEvent => (event.occurredAt, event.eventId)) evs
  by_contra hnot
  have hlen : ordered.length = evs.length := hperm.length_eq
  have hsel : (lastOf (rules.recentEventCount + rules.precedingEventCount) ordered).length =
      rules.recentEventCount + rules.precedingEventCount := by
    rw [lastOf, List.length_drop]
    omega
  set selected := lastOf (rules.recentEventCount + rules.precedingEventCount) ordered
  have hall : ∀ event ∈ selected, event.effectiveWeight = 1 := by
    intro event hev
    exact hones event (hperm.subset ((lastOf_sublist _ _).subset hev))
  have hrecent := rules.recent_pos
  have hpreceding := rules.preceding_pos
  have hfst : weightedAverage (selected.take rules.precedingEventCount) ≠ none := by
    refine weightedAverage_ones ?_ fun event hev => hall event (List.mem_of_mem_take hev)
    rw [← List.length_pos_iff, List.length_take]
    omega
  have hsec : weightedAverage (selected.drop rules.precedingEventCount) ≠ none := by
    refine weightedAverage_ones ?_ fun event hev => hall event (List.mem_of_mem_drop hev)
    rw [← List.length_pos_iff, List.length_drop]
    omega
  obtain ⟨preceding, hprecedingAverage⟩ := Option.ne_none_iff_exists'.mp hfst
  obtain ⟨recent, hrecentAverage⟩ := Option.ne_none_iff_exists'.mp hsec
  have hcode : (calculateTrend evs rules).code =
      if rules.minimumDelta ≤ quantize 3 (recent - preceding) then .improving
      else if quantize 3 (recent - preceding) ≤ -rules.minimumDelta then .declining
      else .stable := by
    have henough : ¬ordered.length < rules.recentEventCount + rules.precedingEventCount := by omega
    unfold calculateTrend
    dsimp only
    rw [if_neg henough]
    have hbefore : weightedAverage ((lastOf (rules.recentEventCount + rules.precedingEventCount)
        (sortedBy (fun event : TrendEvent => (event.occurredAt, event.eventId)) evs)).take
          rules.precedingEventCount) = some preceding := hprecedingAverage
    have hafter : weightedAverage ((lastOf (rules.recentEventCount + rules.precedingEventCount)
        (sortedBy (fun event : TrendEvent => (event.occurredAt, event.eventId)) evs)).drop
          rules.precedingEventCount) = some recent := hrecentAverage
    rw [hbefore, hafter]
  rw [hcode] at h
  split at h
  · cases h
  · split at h
    · cases h
    · cases h

theorem trend_ids_length (evs : List TrendEvent) (rules : TrendRules) :
    (calculateTrend evs rules).eventIds.length ≤
      rules.recentEventCount + rules.precedingEventCount := by
  unfold calculateTrend
  dsimp only
  split
  · exact Nat.zero_le _
  · split
    · rw [List.length_map]
      exact length_lastOf_le _ _
    · rw [List.length_map]
      exact length_lastOf_le _ _

def portfolioTrend (history : List PortfolioHistoryItem) (rules : TrendRules) : TrendResult :=
  if history = [] then { code := .firstScore, eventIds := [] }
  else calculateTrend (history.map PortfolioHistoryItem.trendEvent) rules

variable {rubric : RubricConfig}

theorem scorePortfolioJudgment_ok {history : List PortfolioHistoryItem}
    {scs : List (String × Rat)} {res : PortfolioScoreResult}
    (h : scorePortfolioJudgment scs rubric version history = .ok res) :
    ∃ rules, portfolioTrendRules version = some rules ∧
      res.trend = portfolioTrend history rules := by
  simp only [scorePortfolioJudgment, bind_ok_iff] at h
  obtain ⟨_, -, h⟩ := h
  split at h
  · rename_i rules hrules
    simp only [bind_ok_iff] at h
    obtain ⟨_, -, components, -, _, -, h⟩ := h
    cases h
    exact ⟨rules, hrules, rfl⟩
  · cases h

/-- No slug makes the message about a maximum the one about a version: the two
part ways after the first blank. -/
theorem exceeds_ne_unknown {text maximum : String} (h : slug text = true) :
    text ++ " exceeds its maximum " ++ maximum ≠ "unknown portfolio formula version" := by
  intro heq
  have hblank : ' ' ∉ text.toList := by
    intro hmem
    unfold slug matchesPattern at h
    cases hchars : text.toList with
    | nil =>
      rw [hchars] at hmem
      cases hmem
    | cons first rest =>
      rw [hchars] at h hmem
      simp only [Bool.and_eq_true, List.all_eq_true] at h
      rcases List.mem_cons.mp hmem with rfl | hrest
      · exact absurd h.1.1 (by decide)
      · exact absurd (h.1.2 ' ' hrest) (by decide)
  have hlists : text.toList ++ ' ' :: ("exceeds its maximum ".toList ++ maximum.toList) =
      "unknown".toList ++ ' ' :: "portfolio formula version".toList := by
    have hexceeds : " exceeds its maximum ".toList = ' ' :: "exceeds its maximum ".toList := by
      decide
    have hunknown : "unknown portfolio formula version".toList =
        "unknown".toList ++ ' ' :: "portfolio formula version".toList := by
      decide
    have hchars := congrArg String.toList heq
    rwa [String.toList_append, String.toList_append, List.append_assoc, hexceeds, hunknown,
      List.cons_append] at hchars
  have htail := (Keys.append_sep_inj hblank (by decide) hlists).2
  have hexceeds : "exceeds its maximum ".toList = 'e' :: "xceeds its maximum ".toList := by
    decide
  have hportfolio : "portfolio formula version".toList = 'p' :: "ortfolio formula version".toList := by
    decide
  rw [hexceeds, hportfolio] at htail
  exact absurd (List.cons.inj htail).1 (by decide)

theorem scorePortfolioJudgment_raises {history : List PortfolioHistoryItem}
    {scs : List (String × Rat)}
    (hver : version = "seed-v1") :
    Raises (fun error => ¬FormulaFailure (.portfolio error.message))
      (scorePortfolioJudgment scs rubric version history) := by
  refine Raises.guard (by simp [FormulaFailure]) ?_
  split
  · refine Raises.guard (by simp [FormulaFailure]) ?_
    refine Raises.bind (raises_mapM fun dimension _ => ?_) fun comps _ => ?_
    · unfold portfolioScore
      split
      · exact raises_error (by simp [FormulaFailure])
      · split
        · exact raises_error (by simp [FormulaFailure])
        · split
          · refine raises_error ?_
            rintro (hfail | hfail | hfail)
            · cases hfail
            · cases hfail
            · exact exceeds_ne_unknown dimension.slug_valid (EvidenceFailure.portfolio.inj hfail)
          · exact raises_ok _
    · exact Raises.guard (by simp [FormulaFailure]) (raises_ok _)
  · rename_i hnone
    rw [hver] at hnone
    exact absurd rfl (hnone _)

theorem portfolioBasis_valid {configId : Nat}
    (hkey : ledger.portfolioScores.Keyed PortfolioJudgmentScore.id)
    (hrules : portfolioTrendRules version = some rules) :
    let history := portfolioHistory ledger ownerId configId version
    (portfolioBasis history (portfolioTrend
      (history.map fun item => ⟨item.id, item.totalScore, item.scoredAt⟩) rules)).valid = true := by
  intro history
  have hreqd : rules.recentEventCount + rules.precedingEventCount = 6 := by
    unfold portfolioTrendRules at hrules
    split at hrules
    · cases hrules
      rfl
    · cases hrules
  have hperm : history.Perm _ := List.perm_insertionSort _ _
  have hnd : (history.map PortfolioJudgmentScore.id).Nodup := by
    refine (hperm.map _).nodup_iff.mpr ?_
    exact hkey.nodup.sublist (List.filter_sublist.map _)
  have hpos : ∀ id ∈ history.map PortfolioJudgmentScore.id, 0 < id := by
    intro id hid
    obtain ⟨score, hscore, rfl⟩ := List.mem_map.mp hid
    exact hkey.pos score (List.mem_filter.mp (hperm.mem_iff.mp hscore)).1
  have hval : ∀ code ids, ids.Subperm (history.map PortfolioJudgmentScore.id) →
      ids.length ≤ 24 → (Basis.mk code ids).valid = true := by
    intro code ids hids hlen
    simp only [Basis.valid, Bool.and_eq_true, decide_eq_true_eq, List.all_eq_true]
    refine ⟨⟨hlen, fun id hid => hpos id (hids.subset hid)⟩, ?_⟩
    obtain ⟨os, hos, hsubl⟩ := hids
    exact hos.nodup_iff.mp (hnd.sublist hsubl)
  set items : List PortfolioHistoryItem :=
    history.map fun item => ⟨item.id, item.totalScore, item.scoredAt⟩
  have hids : (items.map PortfolioHistoryItem.trendEvent).map TrendEvent.eventId =
      history.map PortfolioJudgmentScore.id := by
    rw [List.map_map, List.map_map]
    rfl
  have htrend : (portfolioTrend items rules).eventIds.Subperm
      (history.map PortfolioJudgmentScore.id) ∧ (portfolioTrend items rules).eventIds.length ≤ 24 := by
    unfold portfolioTrend
    split
    · exact ⟨List.nil_subperm, Nat.zero_le _⟩
    · have hsubperm := trend_ids (items.map PortfolioHistoryItem.trendEvent) rules
      have hlen := trend_ids_length (items.map PortfolioHistoryItem.trendEvent) rules
      rw [hids] at hsubperm
      exact ⟨hsubperm, by omega⟩
  unfold portfolioBasis
  split
  · rename_i hcode
    refine hval _ _ (List.Subperm.refl _) ?_
    unfold portfolioTrend at hcode
    split at hcode
    · cases hcode
    · have hshort := length_lt_of_insufficient (by
        intro event hev
        obtain ⟨item, -, rfl⟩ := List.mem_map.mp hev
        rfl) hcode
      rw [List.length_map, List.length_map] at hshort
      rw [List.length_map]
      omega
  all_goals exact hval _ _ htrend.1 htrend.2

theorem component_raises (comps : List PortfolioComponentScore) (slug : String) :
    Raises (¬FormulaFailure ·) (component comps slug) := by
  unfold component
  split
  · exact raises_error (by simp [FormulaFailure])
  · exact raises_ok _

theorem validatePortfolioJudgmentScore_raises {tgt : PortfolioJudgmentScore}
    (hbasis : tgt.trendBasis.valid = true) :
    Raises (fun error => ¬FormulaFailure (.contract error.message))
      (validatePortfolioJudgmentScore ledger tgt) := by
  rw [validatePortfolioJudgmentScore, hbasis]
  show Raises _ (if tgt.trendBasis.basisCode = .firstScore then _ else _)
  split
  · apply raises_raiseFirst
    simp [FormulaFailure]
  · apply raises_raiseFirst
    simp [FormulaFailure]

theorem savePortfolioScore_raises {evaluation : RubricEvaluation} (h : History configs ledger)
    (hver : prepared.formula.version = "seed-v1") :
    Raises (¬FormulaFailure ·)
      (savePortfolioScore ledger ownerId evaluation prepared now) := by
  unfold savePortfolioScore
  split
  · refine Raises.bind (raises_mapError (scorePortfolioJudgment_raises hver)) ?_
    intro scored hscored
    rw [mapError_ok_iff] at hscored
    obtain ⟨rules, hrules, htrend⟩ := scorePortfolioJudgment_ok hscored
    iterate 7 refine Raises.bind (component_raises _ _) fun _ _ => ?_
    refine Raises.bind (raises_mapError (validatePortfolioJudgmentScore_raises ?_)) fun _ _ =>
      Raises.bind (stored_raises _) fun _ _ => raises_ok _
    rw [htrend]
    exact portfolioBasis_valid h.portfolioScores hrules
  · exact raises_ok _

theorem loadConfig_key {config : CommandConfig}
    (h : loadConfig lineage ownerId command = .ok config) :
    config.row.versionKey = command.configVersionKey := by
  unfold loadConfig at h
  split at h
  · rename_i row hrow
    simp only [bind_ok_iff] at h
    obtain ⟨bundle, -, h⟩ := h
    split at h
    · split at h
      · cases h
        have hkeys := List.find?_some hrow
        simp only [decide_eq_true_eq] at hkeys
        exact hkeys.2
      · cases h
    · cases h
  · cases h

theorem loadContext_config (h : loadContext lineage ledger ownerId command = .ok context) :
    ∃ config, loadConfig lineage ownerId command = .ok config ∧
      context.configSeedVersionId = config.row.id ∧ context.formula = config.bundle.formula := by
  simp only [loadContext, bind_ok_iff] at h
  obtain ⟨config, hcfg, h⟩ := h
  split at h
  · simp only [bind_ok_iff] at h
    obtain ⟨_, -, _, -, _, -, h⟩ := h
    split at h
    · split at h
      · simp only [bind_ok_iff] at h
        obtain ⟨_, -, selector, -, h⟩ := h
        cases h
        exact ⟨config, hcfg, rfl, rfl⟩
      · cases h
    · cases h
  · cases h

def UsableFor (configs : List ConfigSeedVersion) (ownerId : Nat)
    (command : EvidenceEvaluationCommand) : Prop :=
  ∀ config ∈ configs, config.ownerId = ownerId → config.versionKey = command.configVersionKey →
    ∀ bundle, config.payload = .ok bundle → Usable bundle.formula

theorem saveAll_raises (h : History configs ledger)
    (hkeys : (configs.map ConfigSeedVersion.id).Nodup) (hcfgs : lineage.configs = configs)
    (hcmd : checkCommand command = true) (husable : UsableFor configs ownerId command)
    (hload : loadContext lineage ledger ownerId command = .ok context)
    (hprep : prepareEvaluation context command = .ok prepared) :
    Raises (¬FormulaFailure ·) (saveAll lineage ledger now ownerId prepared) := by
  have hsound := h.sound lineage hcfgs
  obtain ⟨config, hcfg, hid, hform⟩ := loadContext_config hload
  obtain ⟨hmem, hown, hpay, -, -⟩ := loadConfig_ok hcfg
  rw [hcfgs] at hmem
  have hagrees := husable config.row hmem hown (loadConfig_key hcfg) config.bundle hpay
  have hof : prepared.configSeedVersionId = context.configSeedVersionId ∧
      prepared.formula = context.formula := by
    obtain ⟨dims, impacts, evs, components, -, rfl⟩ := prepareEvaluation_ok hprep
    exact ⟨rfl, rfl⟩
  rw [hid, hform] at hof
  obtain ⟨first, middle, heval⟩ := saveEvaluation_accepts ledger ownerId now hcmd hprep
  have hseeds : middle.seeds = ledger.seeds := by
    obtain ⟨-, -, -, rfl⟩ := saveEvaluation_ok heval
    rfl
  obtain ⟨scs, second, hscores⟩ := saveDimensionScores_accepts first now hsound hcmd hload
    hprep hseeds
  rw [saveAll, heval]
  show Raises _ (saveDimensionScores middle ownerId first prepared now >>= fun _ => _)
  rw [hscores]
  show Raises _ (saveSkillEvents lineage second ownerId first scs prepared now >>= fun _ => _)
  refine Raises.bind (saveSkillEvents_raises hsound hcmd hload hprep heval hscores) ?_
  intro saved hevs
  obtain ⟨evs, third⟩ := saved
  have hthird : History configs third :=
    ((h.afterEvaluation heval).afterDimensionScores hscores).afterSkillEvents hmem hpay
      hown hid.symm hform hprep hevs
  refine Raises.bind (saveSnapshots_raises hthird hkeys hmem hpay hown hof.1 hof.2 hagrees
    hcfgs) ?_
  intro saved hsnapshots
  obtain ⟨ids, fourth⟩ := saved
  obtain ⟨table, rfl⟩ := saveSnapshots_ok hsnapshots
  refine Raises.bind (savePortfolioScore_raises (hthird.afterSnapshots table) ?_) fun _ _ =>
    raises_ok _
  rw [hof.2]
  exact hagrees.version

theorem record_raises (h : History configs ledger)
    (hkeys : (configs.map ConfigSeedVersion.id).Nodup) (hcfgs : lineage.configs = configs)
    (hcmd : checkCommand command = true) (husable : UsableFor configs ownerId command) :
    Raises (¬FormulaFailure ·) (record lineage ledger now ownerId command key) := by
  refine Raises.guard (by simp [FormulaFailure]) ?_
  refine Raises.guard (by simp [FormulaFailure]) ?_
  split
  · exact Raises.guard (by simp [FormulaFailure]) (raises_ok _)
  · refine Raises.guard (by simp [FormulaFailure]) ?_
    refine Raises.bind (loadContext_raises.mono ?_) fun context hload => ?_
    · rintro failure hlook (rfl | rfl | rfl)
      · exact hlook
      · exact hlook
      · exact hlook
    · refine Raises.bind (prepareEvaluation_raises.mono ?_) fun prepared hprep => ?_
      · rintro failure hpreparation (rfl | rfl | rfl)
        · exact hpreparation
        · exact hpreparation
        · exact hpreparation
      · exact Raises.bind (saveAll_raises h hkeys hcfgs hcmd husable hload hprep)
          fun _ _ => raises_ok _

/-! ## Runs -/

/-- One call of `record`, with the tables of the other components as it finds
them. -/
structure Recording where
  lineage : Lineage
  now : Instant
  ownerId : Nat
  command : EvidenceEvaluationCommand
  key : String

def Recording.apply (ledger : Ledger) (call : Recording) : Ledger :=
  match record call.lineage ledger call.now call.ownerId call.command call.key with
  | .ok (_, after) => after
  | .error _ => ledger

/-- A call under the seeded configurations; everything else may have changed
since the last one. -/
def RecordStep (configs : List ConfigSeedVersion) (ledger : Ledger) (call : Recording)
    (after : Ledger) : Prop :=
  call.lineage.configs = configs ∧ after = call.apply ledger

structure Fresh (configs : List ConfigSeedVersion) (ledger : Ledger) : Prop where
  seeded : ∀ config ∈ configs, ∀ bundle, config.payload = .ok bundle →
    Seeded ledger.seeds config.ownerId config.id bundle
  unique : UniqueTypes ledger.seeds
  evaluations : ledger.evaluations = .empty
  dimensionScores : ledger.dimensionScores = .empty
  events : ledger.events = .empty
  portfolioScores : ledger.portfolioScores = .empty

theorem Fresh.history (h : Fresh configs ledger) : History configs ledger := by
  refine ⟨?_, h.unique, ?_, ?_⟩
  · intro lineage hcfgs
    refine ⟨?_, ?_, ?_, ?_⟩
    · rw [hcfgs]
      exact h.seeded
    · rw [h.evaluations]
      exact Serial.keyed_empty _
    · rw [h.dimensionScores]
      exact Serial.keyed_empty _
    · rw [h.events]
      exact Serial.keyed_empty _
  · rw [h.portfolioScores]
    exact Serial.keyed_empty _
  · rw [h.events]
    intro event hev
    cases hev

theorem History.step {call : Recording} {after : Ledger} (h : History configs ledger)
    (hstep : RecordStep configs ledger call after) : History configs after := by
  obtain ⟨hcfgs, rfl⟩ := hstep
  unfold Recording.apply
  split
  · rename_i result after hrec
    exact h.record hcfgs hrec
  · exact h

theorem history_of_run {start : Ledger} {trace : List (Transition Ledger Recording)}
    (hstart : Fresh configs start) (hrun : Run (RecordStep configs) start trace ledger) :
    History configs ledger :=
  hrun.state_invariant hstart.history fun _ _ _ h hstep => h.step hstep

/-- Under a usable formula no history makes recording fail for a reason of the
formula's own. -/
theorem usable_formula_of_run {start : Ledger} {trace : List (Transition Ledger Recording)}
    (hkeys : (configs.map ConfigSeedVersion.id).Nodup) (hstart : Fresh configs start)
    (hrun : Run (RecordStep configs) start trace ledger) (hconfigs : lineage.configs = configs)
    (hcommand : checkCommand command = true) (husable : UsableFor configs ownerId command) :
    ∀ failure, record lineage ledger now ownerId command key = .error failure →
      ¬FormulaFailure failure :=
  record_raises (history_of_run hstart hrun) hkeys hconfigs hcommand husable

def sampleRecording (bundle : ConfigBundle) (now : Instant) (key : String) : Recording :=
  ⟨sampleLineage bundle, now, 1, sampleEvaluation now, key⟩

theorem fresh_sample : Fresh (sampleLineage shippedBundle).configs (sampleLedger shippedBundle) where
  seeded := (sound_sample shippedBundle).seeded
  unique := repeatedLedger_unique 1
  evaluations := rfl
  dimensionScores := rfl
  events := rfl
  portfolioScores := rfl

/-- After one recorded evaluation the shipped formula is still usable. -/
theorem usable_formula_sample :
    Raises (fun failure => ¬FormulaFailure failure) (record (sampleLineage shippedBundle)
      ((sampleRecording shippedBundle 70 "first").apply (sampleLedger shippedBundle)) 90 1
      (sampleEvaluation 90) "second") := by
  have hrun : Run (RecordStep (sampleLineage shippedBundle).configs) (sampleLedger shippedBundle) _
      ((sampleRecording shippedBundle 70 "first").apply (sampleLedger shippedBundle)) :=
    Run.single ⟨rfl, rfl⟩
  refine usable_formula_of_run (by decide) fresh_sample hrun rfl (by decide +kernel) ?_
  intro config hconfig _ _ bundle hpayload
  rw [List.mem_singleton.mp hconfig] at hpayload
  cases hpayload
  exact ⟨rfl, by decide, rfl⟩

def heavyPrior : FormulaConfig :=
  { shippedFormula with
    priorWeight := 3
    priorWeight_pos := by decide +kernel
    priorWeight_le := by decide +kernel
    priorWeight_places := by decide +kernel }

/-- Under it the very first evaluation is refused. -/
theorem heavy_prior_refused :
    (record (sampleLineage (bundleOf heavyPrior rfl)) (sampleLedger (bundleOf heavyPrior rfl)) 70 1
        (sampleEvaluation 70) "first").map (fun _ => ()) =
      .error (.contract "snapshot estimate is not reproducible") := by
  decide +kernel

/-! ## Replays -/

variable {result : RecordEvaluationResponse} {after later : Ledger}

theorem receipt_kept {receipt : CommandReceipt} {call : Recording}
    (h : ledger.receipt? ownerId key = some receipt)
    (hstep : RecordStep configs ledger call after) : after.receipt? ownerId key = some receipt := by
  obtain ⟨-, rfl⟩ := hstep
  unfold Recording.apply
  split
  · rename_i hrecord
    rcases record_ok hrecord with ⟨_, -, -, -, rfl⟩ | ⟨-, -, hreceipts, -⟩
    · exact h
    · rw [Ledger.receipt?] at h
      rw [Ledger.receipt?, hreceipts, List.find?_append, h, Option.some_or]
  · exact h

def firstLedger : Ledger :=
  { sampleLedger shippedBundle with
    receipts := [⟨1, "first", sampleEvaluation 70, ⟨1, 7, 3, [1], [1], none, false⟩, 70⟩] }

def secondLedger : Ledger := (sampleRecording shippedBundle 90 "second").apply firstLedger

end TamForge.Evidence
