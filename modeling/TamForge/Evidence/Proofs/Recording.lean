import TamForge.Evidence.Repository

/-!
# What recording appends

`record_atomic` either replays a receipt or appends one evaluation, its events
and a receipt under the key.  Everything else is a matter of the rows' columns.
-/

namespace TamForge.Evidence

open Learning Models ProofSupport

variable {lineage : Lineage} {ledger ledger' : Ledger} {now : Instant} {ownerId : Nat}
  {command : EvidenceEvaluationCommand} {key : String} {prepared : PreparedEvaluation}

/-! ## The rows of one attempt -/

def evaluationsOf (ledger : Ledger) (ownerId activityId attemptId : Nat) :
    List RubricEvaluation :=
  ledger.evaluations.rows.filter fun row => row.ownerId = ownerId ∧
    row.activityInstanceId = activityId ∧ row.attemptId = some attemptId

def eventsOf (ledger : Ledger) (ownerId activityId attemptId : Nat) : List SkillEvidenceEvent :=
  ledger.events.rows.filter fun row => row.ownerId = ownerId ∧
    row.activityInstanceId = activityId ∧ row.attemptId = some attemptId

def HoldsEvidence (ledger : Ledger) (ownerId activityId attemptId : Nat) : Prop :=
  evaluationsOf ledger ownerId activityId attemptId ≠ [] ∨
    eventsOf ledger ownerId activityId attemptId ≠ []

/-! ## Inversions -/

structure Prepares (context : EvaluationContext) (command : EvidenceEvaluationCommand)
    (dimensions : List PreparedDimensionScore) (impacts : List (String × SkillImpactResult))
    (events : List PreparedSkillEvent) (components : Option (List (String × Rat))) : Prop where
  lineage_ok : raiseFirst (lineageChecks context command) = .ok ()
  keys_ok : sameKeys (context.dimensions.map PersistedDimension.slug)
    (command.dimensions.map DimensionEvaluationInput.dimensionSlug) = true
  dimensions_ok : context.dimensions.mapM (prepareDimension command) = .ok dimensions
  impacts_ok : applicableImpacts context (conditions context command) = .ok impacts
  subsets_ok : raiseFirst (subsetChecks command (expectedImpacts context impacts)) = .ok ()
  events_ok : (expectedImpacts context impacts).mapM (prepareSkillEvent context command) = .ok events
  components_ok : portfolioComponents context dimensions = .ok components

variable {context : EvaluationContext}

theorem prepareEvaluation_ok (h : prepareEvaluation context command = .ok prepared) :
    ∃ dims impacts evs components,
      Prepares context command dims impacts evs components ∧
      prepared = .of context command dims evs components := by
  simp only [prepareEvaluation, bind_ok_iff] at h
  obtain ⟨_, hlin, _, hkeys, dims, hdims, impacts, himps, _, hsubsets, evs,
    hevs, components, hcomponents, hprepd⟩ := h
  have hsame := raiseFirst_eq_ok.mp hkeys _ (List.mem_cons_self ..)
  rw [Bool.not_eq_false'] at hsame
  exact ⟨dims, impacts, evs, components,
    ⟨hlin, hsame, hdims, himps, hsubsets, hevs, hcomponents⟩,
    (Except.ok.inj hprepd).symm⟩

theorem Prepares.ids {dims : List PreparedDimensionScore}
    {impacts : List (String × SkillImpactResult)} {evs : List PreparedSkillEvent}
    {comps : Option (List (String × Rat))}
    (h : Prepares context command dims impacts evs comps) :
    context.activityId = command.activityId ∧ context.attemptId = command.attemptId := by
  have hids := raiseFirst_eq_ok.mp h.lineage_ok _ (List.mem_cons_self ..)
  simp only [Bool.or_eq_false_iff, bne_eq_false_iff_eq] at hids
  exact ⟨hids.1.symm, hids.2.symm⟩

theorem prepareEvaluation_ids (h : prepareEvaluation context command = .ok prepared) :
    prepared.activityId = command.activityId ∧ prepared.attemptId = command.attemptId := by
  obtain ⟨dims, impacts, events, components, hpreps, rfl⟩ := prepareEvaluation_ok h
  exact hpreps.ids

variable {evaluation : RubricEvaluation}

/-- What `_save_evaluation` appends. -/
theorem saveEvaluation_ok
    (h : saveEvaluation ledger ownerId prepared now = .ok (evaluation, ledger')) :
    evaluation.ownerId = ownerId ∧ evaluation.activityInstanceId = prepared.activityId ∧
      evaluation.attemptId = some prepared.attemptId ∧
      ledger' = { ledger with
        evaluations := ⟨ledger.evaluations.rows ++ [evaluation], ledger.evaluations.next + 1⟩ } := by
  simp only [saveEvaluation, bind_ok_iff] at h
  obtain ⟨_, -, h⟩ := h
  cases h
  exact ⟨rfl, rfl, rfl, rfl⟩

variable {scores : List RubricDimensionScore}

theorem saveDimensionScores_ok
    (h : saveDimensionScores ledger ownerId evaluation prepared now = .ok (scores, ledger')) :
    ∃ table, ledger' = { ledger with dimensionScores := table } := by
  simp only [saveDimensionScores, bind_ok_iff] at h
  obtain ⟨_, -, _, -, h⟩ := h
  cases h
  exact ⟨_, rfl⟩

/-- What `_save_skill_events` appends. -/
theorem saveSkillEvents_ok {events : List SkillEvidenceEvent}
    (h : saveSkillEvents lineage ledger ownerId evaluation scores prepared now =
      .ok (events, ledger'))
    :
    (∀ event ∈ events, event.ownerId = ownerId ∧
      event.activityInstanceId = prepared.activityId ∧
      event.attemptId = some prepared.attemptId) ∧
    ∃ table, table.rows = ledger.events.rows ++ events ∧
      ledger' = { ledger with events := table } := by
  simp only [saveSkillEvents, bind_ok_iff] at h
  obtain ⟨pending, hpend, _, -, _, -, h⟩ := h
  cases h
  refine ⟨?_, _, Serial.insertAll_rows _ _, rfl⟩
  intro event hev
  obtain ⟨make, hmake, id, rfl⟩ := Serial.mem_insertAll hev
  obtain ⟨item, -, hitem⟩ := mapM_ok_mem hpend hmake
  simp only [pendingSkillEvent, bind_ok_iff] at hitem
  obtain ⟨items, -, hitem⟩ := hitem
  cases hitem
  exact ⟨rfl, rfl, rfl⟩

theorem saveSnapshot_ok {snapshot : SkillSnapshot} {skillId : Nat}
    (h : saveSnapshot lineage ownerId prepared now ledger skillId = .ok (snapshot, ledger')) :
    ∃ table, ledger' = { ledger with snapshots := table } := by
  unfold saveSnapshot at h
  split at h
  · simp only [bind_ok_iff] at h
    obtain ⟨evidence, -, estimate, -, _, -, _, -, h⟩ := h
    cases h
    exact ⟨_, rfl⟩
  · cases h

theorem saveSnapshots_ok {skillIds ids : List Nat}
    (h : saveSnapshots lineage ownerId prepared now ledger skillIds = .ok (ids, ledger')) :
    ∃ table, ledger' = { ledger with snapshots := table } := by
  induction skillIds generalizing ledger ids with
  | nil =>
    cases h
    exact ⟨_, rfl⟩
  | cons skillId rest ih =>
    simp only [saveSnapshots, bind_ok_iff] at h
    obtain ⟨⟨snapshot, middle⟩, hfst, ⟨others, last⟩, hrest, h⟩ := h
    cases h
    obtain ⟨first, rfl⟩ := saveSnapshot_ok hfst
    obtain ⟨table, rfl⟩ := ih hrest
    exact ⟨table, rfl⟩

theorem savePortfolioScore_ok {id : Option Nat}
    (h : savePortfolioScore ledger ownerId evaluation prepared now = .ok (id, ledger')) :
    ∃ table, ledger' = { ledger with portfolioScores := table } := by
  unfold savePortfolioScore at h
  split at h
  · simp only [bind_ok_iff] at h
    obtain ⟨scored, -, _, -, _, -, _, -, _, -, _, -, _, -, _, -, _, -, _, -, h⟩ := h
    cases h
    exact ⟨_, rfl⟩
  · cases h
    exact ⟨_, rfl⟩

/-! ## Recording -/

structure Appended (ledger : Ledger) (ownerId activityId attemptId : Nat)
    (result : RecordEvaluationResponse) (ledger' : Ledger) : Prop where
  evaluation : ∃ evaluation, evaluation.ownerId = ownerId ∧
    evaluation.activityInstanceId = activityId ∧ evaluation.attemptId = some attemptId ∧
    ledger'.evaluations.rows = ledger.evaluations.rows ++ [evaluation]
  events : ∃ events, (∀ event ∈ events, event.ownerId = ownerId ∧
      event.activityInstanceId = activityId ∧ event.attemptId = some attemptId) ∧
    events.map SkillEvidenceEvent.id = result.evidenceEventIds ∧
    ledger'.events.rows = ledger.events.rows ++ events

theorem saveAll_ok {result : RecordEvaluationResponse}
    (h : saveAll lineage ledger now ownerId prepared = .ok (result, ledger')) :
    Appended ledger ownerId prepared.activityId prepared.attemptId result ledger' ∧
      ledger'.receipts = ledger.receipts ∧ ledger'.seeds = ledger.seeds := by
  simp only [saveAll, bind_ok_iff] at h
  obtain ⟨⟨evaluation, first⟩, heval, ⟨scores, second⟩, hscores, ⟨events, third⟩, hevs,
    ⟨snapshotIds, fourth⟩, hsnapshots, ⟨portfolioId, fifth⟩, hportfolio, h⟩ := h
  cases h
  obtain ⟨hown, hact, hatt, rfl⟩ := saveEvaluation_ok heval
  obtain ⟨scoreTable, rfl⟩ := saveDimensionScores_ok hscores
  obtain ⟨hcols, eventTable, hrows, rfl⟩ := saveSkillEvents_ok hevs
  obtain ⟨snapshotTable, rfl⟩ := saveSnapshots_ok hsnapshots
  obtain ⟨portfolioTable, rfl⟩ := savePortfolioScore_ok hportfolio
  exact ⟨⟨⟨evaluation, hown, hact, hatt, rfl⟩, ⟨events, hcols, rfl, hrows⟩⟩,
    rfl, rfl⟩

theorem record_ok {result : RecordEvaluationResponse}
    (h : record lineage ledger now ownerId command key = .ok (result, ledger')) :
    (∃ rcpt, ledger.receipt? ownerId key = some rcpt ∧ rcpt.command = command ∧
      result = rcpt.result ∧ ledger' = ledger) ∨
    (ledger.receipt? ownerId key = none ∧
      Appended ledger ownerId command.activityId command.attemptId result ledger' ∧
      ledger'.receipts = ledger.receipts ++ [⟨ownerId, key, command, result, now⟩] ∧
      ledger'.seeds = ledger.seeds) := by
  simp only [record, recordAtomic, bind_ok_iff] at h
  obtain ⟨_, -, _, -, h⟩ := h
  split at h
  · rename_i rcpt hrcpt
    simp only [bind_ok_iff] at h
    obtain ⟨_, hsame, h⟩ := h
    have hcmd := raiseFirst_eq_ok.mp hsame _ (List.mem_cons_self ..)
    rw [bne_eq_false_iff_eq] at hcmd
    cases h
    exact Or.inl ⟨rcpt, hrcpt, hcmd, rfl, rfl⟩
  · rename_i hfree
    simp only [bind_ok_iff] at h
    obtain ⟨_, -, context, -, prepared, hprepd, ⟨saved, appended⟩, hsaved, h⟩ := h
    cases h
    obtain ⟨hact, hatt⟩ := prepareEvaluation_ids hprepd
    obtain ⟨happ, hreceipts, hseeds⟩ := saveAll_ok hsaved
    rw [hact, hatt] at happ
    refine Or.inr ⟨hfree, ⟨happ.evaluation, happ.events⟩, ?_, hseeds⟩
    rw [← hreceipts]

/-! ### The rows of an attempt after recording -/

section Appended

variable {result : RecordEvaluationResponse} {activityId attemptId : Nat}

theorem Appended.holds (h : Appended ledger ownerId activityId attemptId result ledger') :
    HoldsEvidence ledger' ownerId activityId attemptId := by
  obtain ⟨evaluation, hown, hact, hatt, hrows⟩ := h.evaluation
  left
  have hmem : evaluation ∈ evaluationsOf ledger' ownerId activityId attemptId := by
    rw [evaluationsOf, hrows, List.mem_filter]
    exact ⟨by simp, by simp [hown, hact, hatt]⟩
  exact List.ne_nil_of_mem hmem

theorem Appended.eventsOf_self (h : Appended ledger ownerId activityId attemptId result ledger')
    (hnone : ¬HoldsEvidence ledger ownerId activityId attemptId) :
    (eventsOf ledger' ownerId activityId attemptId).map SkillEvidenceEvent.id =
      result.evidenceEventIds := by
  obtain ⟨events, hcols, hids, hrows⟩ := h.events
  have hb : eventsOf ledger ownerId activityId attemptId = [] := by
    by_contra hne
    exact hnone (Or.inr hne)
  have hnew : events.filter (fun row => row.ownerId = ownerId ∧
      row.activityInstanceId = activityId ∧ row.attemptId = some attemptId) = events := by
    apply List.filter_eq_self.mpr
    intro event hev
    exact decide_eq_true (hcols event hev)
  rw [eventsOf] at hb ⊢
  rw [hrows, List.filter_append, hb, hnew, List.nil_append, hids]

variable {owner activity attempt : Nat}

theorem Appended.other (h : Appended ledger ownerId activityId attemptId result ledger')
    (hne : (owner, activity, attempt) ≠ (ownerId, activityId, attemptId)) :
    evaluationsOf ledger' owner activity attempt = evaluationsOf ledger owner activity attempt ∧
      eventsOf ledger' owner activity attempt = eventsOf ledger owner activity attempt := by
  have hcols : ∀ {a b : Nat} {d : Option Nat}, a = ownerId → b = activityId →
      d = some attemptId → ¬(a = owner ∧ b = activity ∧ d = some attempt) := by
    rintro a b d rfl rfl rfl ⟨rfl, rfl, hsame⟩
    exact hne (by rw [Option.some.inj hsame])
  obtain ⟨evaluation, hown, hact, hatt, hrows⟩ := h.evaluation
  obtain ⟨evs, hevs, -, hevRows⟩ := h.events
  constructor
  · rw [evaluationsOf, evaluationsOf, hrows, List.filter_append, List.filter_singleton]
    have hfalse := hcols hown hact hatt
    simp [hfalse]
  · rw [eventsOf, eventsOf, hevRows, List.filter_append]
    have hnil : evs.filter (fun row => row.ownerId = owner ∧
        row.activityInstanceId = activity ∧ row.attemptId = some attempt) = [] := by
      apply List.filter_eq_nil_iff.mpr
      intro event hev
      obtain ⟨hevOwn, hevAct, hevAtt⟩ := hevs event hev
      have hfalse := hcols hevOwn hevAct hevAtt
      simpa using hfalse
    rw [hnil, List.append_nil]

theorem Appended.holds_other (h : Appended ledger ownerId activityId attemptId result ledger')
    (hne : (owner, activity, attempt) ≠ (ownerId, activityId, attemptId)) :
    HoldsEvidence ledger' owner activity attempt ↔ HoldsEvidence ledger owner activity attempt := by
  obtain ⟨hevaluations, hevs⟩ := h.other hne
  rw [HoldsEvidence, HoldsEvidence, hevaluations, hevs]

end Appended

/-! ### Receipts -/

theorem record_receipt {rcpt : CommandReceipt} (hown : ownerId ∈ lineage.owners)
    (hpos : 0 < ownerId) (hkey : safeKey key = true)
    (hrcpt : ledger.receipt? ownerId key = some rcpt) :
    record lineage ledger now ownerId command key =
      if rcpt.command = command then .ok (rcpt.result, ledger)
      else .error (.conflict "Idempotency-Key was reused for another evaluation") := by
  have hgrd : raiseFirst [
      (decide (ownerId = 0), EvidenceFailure.invalidRequest "owner is invalid"),
      (!safeKey key, .invalidRequest "Idempotency-Key is invalid")] = .ok () := by
    rw [raiseFirst_eq_ok]
    simp [hkey, Nat.pos_iff_ne_zero.mp hpos]
  have hlock : raiseFirst [(!lineage.owners.contains ownerId,
      EvidenceFailure.notFound "evidence owner was not found")] = .ok () := by
    rw [raiseFirst_eq_ok]
    simp [hown]
  rw [record, hgrd, recordAtomic, hlock, hrcpt]
  by_cases hsame : rcpt.command = command
  · simp [raiseFirst, bind, Except.bind, pure, Except.pure, hsame]
  · simp [raiseFirst, bind, Except.bind, hsame]

end TamForge.Evidence
