import TamForge.Evidence.Proofs.Estimates
import TamForge.Evidence.Proofs.SkillEvents

/-!
# Snapshots that the ledger accepts

`_save_snapshot` takes its numbers from `estimate_skill`, and
`validate_skill_snapshot` computes them again from the stored events that the
manifest names.
-/

namespace TamForge.Evidence

open Learning Models ProofSupport ProofSupport.Decimals

variable {lineage : Lineage} {ledger : Ledger} {ownerId configId skillId : Nat} {version : String}
  {formula : FormulaConfig} {evidence : List SkillEvidence} {asOf : Instant}

/-! ## Stored events -/

def SkillEvidenceEvent.Of (event : SkillEvidenceEvent) (ownerId configId skillId : Nat)
    (version : String) : Prop :=
  event.ownerId = ownerId ∧ event.configSeedVersionId = configId ∧
    event.competencyId = skillId ∧ event.formulaVersion = version

structure StoredEvent (formula : FormulaConfig) (event : SkillEvidenceEvent) : Prop where
  score_nonneg : 0 ≤ event.performanceScore
  score_le : event.performanceScore ≤ 4
  weight_nonneg : 0 ≤ event.effectiveWeight
  weight_le : event.effectiveWeight ≤ formula.maximumEffectiveWeightPerEvent
  weight_places : HasPlaces 6 event.effectiveWeight

structure Reads (seeds : Seeds) (row : SkillEvidenceEvent) (event : SkillEvidence) : Prop where
  id : event.eventId = row.id
  score : event.performanceScore = row.performanceScore
  weight : event.effectiveWeight = row.effectiveWeight
  qualifying : event.qualifyingForLevel = row.qualifyingForLevel
  exercise : ∃ exercise ∈ seeds.exerciseTypes.rows, exercise.ownerId = row.ownerId ∧
    exercise.configSeedVersionId = row.configSeedVersionId ∧
    exercise.id = row.exerciseTypeVersionId ∧ exercise.exerciseType = event.exerciseType

variable {event : SkillEvidence}

theorem evidenceOf_some {row : SkillEvidenceEvent}
    (h : evidenceOf lineage ledger ownerId row = some event) : Reads ledger.seeds row event := by
  simp only [evidenceOf, bind, Option.bind_eq_some_iff] at h
  obtain ⟨exercise, hexer, attempt, -, evaluation, -, h⟩ := h
  cases h
  have hkeys := List.find?_some hexer
  simp only [decide_eq_true_eq] at hkeys
  exact ⟨rfl, rfl, rfl, rfl, exercise, List.mem_of_find?_eq_some hexer, hkeys.1, hkeys.2.1,
    hkeys.2.2, rfl⟩

structure Evidences (ledger : Ledger) (ownerId configId skillId : Nat) (version : String)
    (evidence : List SkillEvidence) : Prop where
  reads : ∀ event ∈ evidence, ∃ row ∈ ledger.events.rows,
    row.Of ownerId configId skillId version ∧ Reads ledger.seeds row event
  nodup : (evidence.map SkillEvidence.eventId).Nodup

theorem nonblank_of_slug {text : String} (h : slug text = true) : nonblank text = true := by
  unfold slug matchesPattern at h
  cases hchars : text.toList with
  | nil =>
    rw [hchars] at h
    cases h
  | cons first rest =>
    rw [hchars] at h
    simp only [Bool.and_eq_true] at h
    have hlower : first.isLower = true := h.1.1
    have hspace : first.isWhitespace = false := by
      by_contra hblank
      simp only [Char.isWhitespace, Bool.not_eq_false, Bool.or_eq_true, decide_eq_true_eq]
        at hblank
      rcases hblank with ((rfl | rfl) | rfl) | rfl <;> exact absurd hlower (by decide)
    rw [nonblank, hchars, List.any_cons, hspace]
    rfl

theorem Reads.nonblank_exerciseType {row : SkillEvidenceEvent} {bundle : ConfigBundle}
    (h : Reads ledger.seeds row event) (hof : row.Of ownerId configId skillId version)
    (hseed : Seeded ledger.seeds ownerId configId bundle) :
    nonblank event.exerciseType = true := by
  obtain ⟨exercise, hmem, hown, hcfg, -, htype⟩ := h.exercise
  rw [hof.1] at hown
  rw [hof.2.1] at hcfg
  obtain ⟨config, -, hconfigured⟩ := hseed.exercises exercise hmem hown hcfg
  rw [← htype, hconfigured.slug]
  exact nonblank_of_slug config.slug_valid

theorem Reads.postInit {row : SkillEvidenceEvent} (h : Reads ledger.seeds row event)
    (hsto : StoredEvent formula row) (hnonblank : nonblank event.exerciseType = true) :
    event.postInit = .ok event := by
  refine bind_ok_iff.mpr ⟨(), ?_, rfl⟩
  rw [raiseFirst_eq_ok]
  simp [h.score, h.weight, hsto.score_nonneg, hsto.score_le, hsto.weight_nonneg,
    hnonblank]

theorem skillEvidence_reads (lineage : Lineage) {bundle : ConfigBundle}
    (hseed : Seeded ledger.seeds ownerId configId bundle)
    (hkey : ledger.events.Keyed SkillEvidenceEvent.id)
    (hsto : ∀ row ∈ ledger.events.rows, row.Of ownerId configId skillId version →
      StoredEvent formula row) :
    ∃ evidence, skillEvidence lineage ledger ownerId configId skillId version = .ok evidence ∧
      Evidences ledger ownerId configId skillId version evidence := by
  let rows := (ledger.events.rows.filter fun event => event.ownerId = ownerId ∧
    event.configSeedVersionId = configId ∧ event.competencyId = skillId ∧
    event.formulaVersion = version).insertionSort fun a b =>
      a.occurredAt < b.occurredAt ∨ a.occurredAt = b.occurredAt ∧ a.id ≤ b.id
  have hperm : rows.Perm _ := List.perm_insertionSort _ _
  have hrows : ∀ row ∈ rows, row ∈ ledger.events.rows ∧
      row.Of ownerId configId skillId version := by
    intro row hrow
    have hfiltd := hperm.mem_iff.mp hrow
    rw [List.mem_filter, decide_eq_true_eq] at hfiltd
    exact hfiltd
  have hevidences : Evidences ledger ownerId configId skillId version
      (rows.filterMap (evidenceOf lineage ledger ownerId)) := by
    constructor
    · intro event hev
      obtain ⟨row, hrow, heq⟩ := List.mem_filterMap.mp hev
      exact ⟨row, (hrows row hrow).1, (hrows row hrow).2, evidenceOf_some heq⟩
    · have hids : (rows.map SkillEvidenceEvent.id).Nodup := by
        refine (hperm.map _).nodup_iff.mpr ?_
        exact hkey.nodup.sublist (List.filter_sublist.map _)
      exact hids.sublist (map_filterMap_sublist (fun row event heq => (evidenceOf_some heq).id) rows)
  refine ⟨_, ?_, hevidences⟩
  show (rows.filterMap (evidenceOf lineage ledger ownerId)).mapM SkillEvidence.postInit = _
  rw [mapM_ok_iff, List.forall₂_same]
  intro event hev
  obtain ⟨row, hrow, hof, hreads⟩ := hevidences.reads event hev
  exact hreads.postInit (hsto row hrow hof) (hreads.nonblank_exerciseType hof hseed)

/-! ## The manifest -/

def usedEntry (adjusted : Adjusted) : ManifestEntry :=
  ⟨adjusted.item.eventId, adjusted.item.usedWeight, adjusted.item.inclusion⟩

def excludedEntry (event : SkillEvidence) : ManifestEntry :=
  ⟨event.eventId, 0,
    if event.qualifyingForLevel then .excludedOutsideWindow else .excludedNonqualifying⟩

def excludedEvents (evidence : List SkillEvidence) (formula : FormulaConfig) (asOf : Instant) :
    List SkillEvidence :=
  sortedBy SkillEvidence.key (evidence.filter fun event =>
    event.eventId ∉ (window evidence formula asOf).map SkillEvidence.eventId)

/-- The ones that fit into the manifest, latest first. -/
def fittingEvents (evidence : List SkillEvidence) (formula : FormulaConfig) (asOf : Instant) :
    List SkillEvidence :=
  (sortedBy SkillEvidence.key (excludedEvents evidence formula asOf)).reverse.take
    (snapshotManifestLimit - (window evidence formula asOf).length)

theorem mem_excludedEvents (h : event ∈ excludedEvents evidence formula asOf) : event ∈ evidence ∧
      event.eventId ∉ (window evidence formula asOf).map SkillEvidence.eventId := by
  have hfiltd := (sortedBy_perm _ _).mem_iff.mp h
  rw [List.mem_filter, decide_eq_true_eq] at hfiltd
  exact hfiltd

theorem mem_fittingEvents (h : event ∈ fittingEvents evidence formula asOf) : event ∈ evidence ∧
      event.eventId ∉ (window evidence formula asOf).map SkillEvidence.eventId := by
  have hreversed := List.mem_reverse.mp (List.mem_of_mem_take h)
  exact mem_excludedEvents ((sortedBy_perm _ _).mem_iff.mp hreversed)

theorem fittingEvents_nodup (hnd : (evidence.map SkillEvidence.eventId).Nodup) :
    ((fittingEvents evidence formula asOf).map SkillEvidence.eventId).Nodup := by
  have hfiltd := hnd.sublist (List.filter_sublist (p := fun event : SkillEvidence =>
    decide (event.eventId ∉ (window evidence formula asOf).map SkillEvidence.eventId)).map
      SkillEvidence.eventId)
  have hexcl : ((excludedEvents evidence formula asOf).map SkillEvidence.eventId).Nodup :=
    ((sortedBy_perm _ _).map _).nodup_iff.mpr hfiltd
  have hsort := ((sortedBy_perm SkillEvidence.key _).map SkillEvidence.eventId).nodup_iff.mpr
    hexcl
  have hreversed := ((List.reverse_perm _).map SkillEvidence.eventId).nodup_iff.mpr hsort
  exact hreversed.sublist ((List.take_sublist _ _).map _)

theorem filterMap_find? (hnd : (evidence.map SkillEvidence.eventId).Nodup)
    {events : List SkillEvidence} (hmem : ∀ event ∈ events, event ∈ evidence) :
    (events.map SkillEvidence.eventId).filterMap (fun id =>
      evidence.find? fun event => event.eventId = id) = events := by
  induction events with
  | nil => rfl
  | cons event rest ih =>
    have hfind : evidence.find? (fun other => other.eventId = event.eventId) = some event := by
      cases hf : evidence.find? fun other => other.eventId = event.eventId with
      | none =>
        have hnone := List.find?_eq_none.mp hf event (hmem event (by simp))
        exact absurd (decide_eq_true rfl) hnone
      | some found =>
        have hsame : found.eventId = event.eventId := by simpa using List.find?_some hf
        rw [List.inj_on_of_nodup_map hnd (List.mem_of_find?_eq_some hf)
          (hmem event (by simp)) hsame]
    have hrest := ih fun other ho => hmem other (by simp [ho])
    simp only [List.map_cons, List.filterMap_cons, hfind, hrest]

theorem snapshotManifest_eq (baseline monthOne final : Rat)
    (hnd : (evidence.map SkillEvidence.eventId).Nodup)
    (hwin : formula.latestQualifyingEvents ≤ snapshotManifestLimit) :
    snapshotManifest evidence (estimateOf baseline monthOne final evidence formula asOf) =
      (adjustAll formula [] (window evidence formula asOf)).map usedEntry ++
        (fittingEvents evidence formula asOf).map excludedEntry := by
  have hlen : (window evidence formula asOf).length ≤ snapshotManifestLimit :=
    length_window_le.trans hwin
  have hexcl : (excludedEvents evidence formula asOf).map SkillEvidence.eventId =
      (estimateOf baseline monthOne final evidence formula asOf).excludedEventIds := rfl
  have hused : (estimateOf baseline monthOne final evidence formula asOf).weightManifest =
      (adjustAll formula [] (window evidence formula asOf)).map Adjusted.item := rfl
  rw [snapshotManifest, ← hexcl, hused,
    filterMap_find? hnd fun event hev => (mem_excludedEvents hev).1]
  simp only [List.length_map, length_adjustAll, hlen, if_true, List.map_map]
  rfl

variable {adjusted : Adjusted}

theorem Adjusts.used_bounds (h : Adjusts formula event adjusted)
    (hpl : HasPlaces 6 event.effectiveWeight) (hnonneg : 0 ≤ event.effectiveWeight) :
    0 ≤ adjusted.item.usedWeight ∧
      adjusted.item.usedWeight ≤ event.effectiveWeight := by
  rcases h.used with ⟨-, hused⟩ | ⟨-, hused⟩
  · rw [hused, hpl.quantize_eq]
    exact ⟨hnonneg, le_refl _⟩
  · rw [hused, hpl.quantize_eq]
    have hproduct : 0 ≤ event.effectiveWeight * formula.sameDayRepetitionFactor :=
      mul_nonneg hnonneg formula.repetition_pos.le
    constructor
    · exact (hasPlaces_zero 6).le_quantize hproduct
    · apply hpl.quantize_le
      exact mul_le_of_le_one_right hnonneg formula.repetition_lt.le

structure Weighed (formula : FormulaConfig) (event : SkillEvidence) : Prop where
  id_pos : 0 < event.eventId
  nonneg : 0 ≤ event.effectiveWeight
  le : event.effectiveWeight ≤ formula.maximumEffectiveWeightPerEvent
  places : HasPlaces 6 event.effectiveWeight

theorem snapshotManifestValid_window (hnd : (evidence.map SkillEvidence.eventId).Nodup)
    (hwtd : ∀ event ∈ evidence, Weighed formula event)
    (hwin : formula.latestQualifyingEvents ≤ snapshotManifestLimit) :
    snapshotManifestValid ((adjustAll formula [] (window evidence formula asOf)).map usedEntry ++
      (fittingEvents evidence formula asOf).map excludedEntry) = true := by
  have hlen : (window evidence formula asOf).length ≤ 24 := length_window_le.trans hwin
  have hids : (adjustAll formula [] (window evidence formula asOf)).map
      (fun adjusted => (usedEntry adjusted).eventId) =
        (window evidence formula asOf).map SkillEvidence.eventId := by
    rw [← map_adjustAll [] SkillEvidence.eventId fun _ _ => rfl]
    apply List.map_congr_left
    intro adjusted hadj
    obtain ⟨event, -, hadjs⟩ := mem_adjustAll hadj
    rw [hadjs.event_eq]
    exact hadjs.item_id
  simp only [snapshotManifestValid, Bool.and_eq_true, decide_eq_true_eq, List.all_append,
    List.all_eq_true, List.forall_mem_map]
  refine ⟨⟨?_, ?_⟩, ?_, ?_⟩
  · rw [List.length_append, List.length_map, List.length_map, length_adjustAll, fittingEvents,
      List.length_take]
    have hlimit : snapshotManifestLimit = 24 := rfl
    omega
  · rw [List.map_append, List.map_map, List.map_map]
    show ((adjustAll formula [] (window evidence formula asOf)).map
      (fun adjusted => (usedEntry adjusted).eventId) ++
        (fittingEvents evidence formula asOf).map SkillEvidence.eventId).Nodup
    rw [hids, List.nodup_append]
    refine ⟨window_nodup hnd, fittingEvents_nodup hnd, ?_⟩
    intro id hid other ho heq
    obtain ⟨event, hev, rfl⟩ := List.mem_map.mp ho
    rw [heq] at hid
    exact (mem_fittingEvents hev).2 hid
  · intro adjusted hadj
    obtain ⟨event, hev, hadjs⟩ := mem_adjustAll hadj
    have hevs := hwtd event (mem_window hev).1
    have hbd := hadjs.used_bounds hevs.places hevs.nonneg
    have hmax : formula.maximumEffectiveWeightPerEvent ≤ 3 / 2 :=
      formula.maximum_le.trans (by norm_num)
    rw [usedEntry, hadjs.item_id]
    exact ⟨hevs.id_pos, hbd.1, (hbd.2.trans hevs.le).trans hmax⟩
  · intro event hev
    refine ⟨(hwtd event (mem_fittingEvents hev).1).id_pos, le_refl _, ?_⟩
    norm_num [excludedEntry]

/-! ## The bases -/

def usedEvents (evidence : List SkillEvidence) (formula : FormulaConfig) (asOf : Instant) :
    List SkillEvidence :=
  (adjustAll formula [] (window evidence formula asOf)).map Adjusted.event

theorem usedEvents_map {α : Type} (f : SkillEvidence → α)
    (hf : ∀ event wt, f { event with effectiveWeight := wt } = f event) :
    (usedEvents evidence formula asOf).map f = (window evidence formula asOf).map f := by
  rw [usedEvents, List.map_map]
  exact map_adjustAll [] f hf

theorem qualifyingEvents_used :
    qualifyingEvents (usedEvents evidence formula asOf) asOf = usedEvents evidence formula asOf := by
  rw [qualifyingEvents, List.filter_eq_self]
  intro event hev
  obtain ⟨adjusted, hadj, rfl⟩ := List.mem_map.mp hev
  obtain ⟨source, hsrc, hadjs⟩ := mem_adjustAll hadj
  rw [hadjs.event_eq, decide_eq_true_eq]
  exact (mem_window hsrc).2

theorem basis_valid {basis : Basis} (hnd : (evidence.map SkillEvidence.eventId).Nodup)
    (hwtd : ∀ event ∈ evidence, Weighed formula event)
    (hwin : formula.latestQualifyingEvents ≤ snapshotManifestLimit)
    (hids : basis.eventIds.Subperm ((window evidence formula asOf).map SkillEvidence.eventId)) :
    basis.valid = true := by
  have hlen : (window evidence formula asOf).length ≤ 24 := length_window_le.trans hwin
  have hle := hids.length_le
  rw [List.length_map] at hle
  simp only [Basis.valid, Bool.and_eq_true, decide_eq_true_eq, List.all_eq_true]
  refine ⟨⟨by omega, ?_⟩, ?_⟩
  · intro id hid
    obtain ⟨event, hev, rfl⟩ := List.mem_map.mp (hids.subset hid)
    exact (hwtd event (mem_window hev).1).id_pos
  · obtain ⟨ids, hperm, hsubl⟩ := hids
    exact hperm.nodup_iff.mp ((window_nodup hnd).sublist hsubl)

theorem confidence_ids : (classifyConfidence (usedEvents evidence formula asOf) formula
    asOf).eventIds.Perm ((window evidence formula asOf).map SkillEvidence.eventId) := by
  show ((sortedBy SkillEvidence.key (qualifyingEvents (usedEvents evidence formula asOf)
    asOf)).map SkillEvidence.eventId).Perm _
  rw [qualifyingEvents_used, ← usedEvents_map SkillEvidence.eventId fun _ _ => rfl]
  exact (sortedBy_perm _ _).map _

theorem confidence_exerciseTypeCount :
    (classifyConfidence (usedEvents evidence formula asOf) formula asOf).exerciseTypeCount =
      ((window evidence formula asOf).map SkillEvidence.exerciseType).dedup.length := by
  show ((sortedBy SkillEvidence.key (qualifyingEvents (usedEvents evidence formula asOf)
    asOf)).map SkillEvidence.exerciseType).dedup.length = _
  rw [qualifyingEvents_used, ← usedEvents_map SkillEvidence.exerciseType fun _ _ => rfl]
  exact ((sortedBy_perm _ _).map _).dedup.length_eq

theorem confidence_allows (evs : List SkillEvidence) :
    (classifyConfidence evs formula asOf).code.allows
      (classifyConfidence evs formula asOf).basisCode = true := by
  simp only [classifyConfidence]
  split
  · rfl
  · split
    · rfl
    · rfl

theorem trend_ids (evs : List TrendEvent) (rules : TrendRules) :
    (calculateTrend evs rules).eventIds.Subperm (evs.map TrendEvent.eventId) := by
  have hperm := sortedBy_perm (fun event : TrendEvent => (event.occurredAt, event.eventId)) evs
  have hsel : ((lastOf (rules.recentEventCount + rules.precedingEventCount)
      (sortedBy (fun event : TrendEvent => (event.occurredAt, event.eventId)) evs)).map
        TrendEvent.eventId).Subperm (evs.map TrendEvent.eventId) :=
    (((lastOf_sublist _ _).map _).subperm).trans (hperm.map _).subperm
  simp only [calculateTrend]
  split
  · exact List.nil_subperm
  · split
    · exact hsel
    · exact hsel

theorem trend_code_ne_firstScore {evs : List TrendEvent} {rules : TrendRules} :
    (calculateTrend evs rules).code ≠ .firstScore := by
  simp only [calculateTrend]
  split
  · simp
  · split
    · show (if _ then TrendCode.improving else if _ then .declining else .stable) ≠ _
      split
      · simp
      · split
        · simp
        · simp
    · simp

theorem trend_allows {estimate : SkillEstimateResult} (h : estimate.trend.code ≠ .firstScore) :
    estimate.trend.code.allows (trendBasisCode estimate) = true := by
  unfold trendBasisCode
  cases hcode : estimate.trend.code with
  | insufficientEvidence =>
    by_cases hnil : estimate.contributingEventIds.isEmpty = true
    · simp only [hnil, if_true]
      rfl
    · simp only [hnil]
      rfl
  | firstScore => exact absurd hcode h
  | improving => rfl
  | stable => rfl
  | declining => rfl

/-! ## The recomputation -/

def storedVersion (ledger : Ledger) (eventId : Nat) : Nat :=
  ((ledger.events.rows.find? fun event => event.id = eventId).map
    SkillEvidenceEvent.exerciseTypeVersionId).getD 0

def counted (ledger : Ledger) (adjusted : Adjusted) : Contribution :=
  ⟨adjusted.item.usedWeight, adjusted.event.performanceScore,
    storedVersion ledger adjusted.item.eventId⟩

variable {target : SkillSnapshot}

theorem contribution_find? {row : SkillEvidenceEvent}
    (hkey : ledger.events.Keyed SkillEvidenceEvent.id) (hrow : row ∈ ledger.events.rows)
    (hof : row.Of target.ownerId target.configSeedVersionId target.competencyId
      target.formulaVersion)
    :
    ledger.events.rows.find? (fun event => event.ownerId = target.ownerId ∧
        event.configSeedVersionId = target.configSeedVersionId ∧
        event.competencyId = target.competencyId ∧
        event.formulaVersion = target.formulaVersion ∧ event.id = row.id) = some row := by
  apply hkey.find? hrow
  · obtain ⟨hown, hcfg, hskill, hver⟩ := hof
    simp [hown, hcfg, hskill, hver]
  · intro other ho
    simp only [decide_eq_true_eq] at ho
    exact ho.2.2.2.2

theorem storedVersion_eq {row : SkillEvidenceEvent}
    (hkey : ledger.events.Keyed SkillEvidenceEvent.id) (hrow : row ∈ ledger.events.rows) :
    storedVersion ledger row.id = row.exerciseTypeVersionId := by
  have hfind : ledger.events.rows.find? (fun event => event.id = row.id) = some row := by
    apply hkey.find? hrow
    · simp
    · intro other ho
      simpa using ho
  rw [storedVersion, hfind]
  rfl

theorem contribution_used {row : SkillEvidenceEvent}
    (hkey : ledger.events.Keyed SkillEvidenceEvent.id) (hrow : row ∈ ledger.events.rows)
    (hof : row.Of target.ownerId target.configSeedVersionId target.competencyId
      target.formulaVersion)
    (hreads : Reads ledger.seeds row event) (hqual : event.qualifyingForLevel = true)
    (hwtd : Weighed formula event) (hadjs : Adjusts formula event adjusted)
    (hpos : adjusted.item.inclusion = .discountedSameDay → 0 < adjusted.item.usedWeight) :
    contribution ledger target (usedEntry adjusted) = .ok (some (counted ledger adjusted)) := by
  have hbd := hadjs.used_bounds hwtd.places hwtd.nonneg
  have hid : adjusted.item.eventId = row.id := hadjs.item_id.trans hreads.id
  have hcnt : counted ledger adjusted =
      ⟨adjusted.item.usedWeight, row.performanceScore, row.exerciseTypeVersionId⟩ := by
    rw [counted, hid, storedVersion_eq hkey hrow, hadjs.event_eq, ← hreads.score]
  rw [contribution, usedEntry, hid, contribution_find? hkey hrow hof, hcnt]
  rw [hreads.qualifying] at hqual
  rw [hreads.weight] at hbd
  rcases hadjs.used with ⟨hincl, hused⟩ | ⟨hdisc, -⟩
  · rw [hwtd.places.quantize_eq, hreads.weight] at hused
    simp [hincl, hused, hqual, raiseFirst, bind, Except.bind, pure, Except.pure]
  · have husedPos := hpos hdisc
    simp [hdisc, hqual, husedPos.not_ge, hbd.2.not_gt, raiseFirst, bind, Except.bind,
      pure, Except.pure]

theorem contribution_excluded {row : SkillEvidenceEvent}
    (hkey : ledger.events.Keyed SkillEvidenceEvent.id) (hrow : row ∈ ledger.events.rows)
    (hof : row.Of target.ownerId target.configSeedVersionId target.competencyId
      target.formulaVersion)
    (hreads : Reads ledger.seeds row event) :
    contribution ledger target (excludedEntry event) = .ok none := by
  rw [contribution, excludedEntry, hreads.id, contribution_find? hkey hrow hof]
  by_cases hqual : event.qualifyingForLevel = true
  · simp [hqual, raiseFirst, bind, Except.bind, pure, Except.pure]
  · simp [hqual, raiseFirst, bind, Except.bind, pure, Except.pure]

theorem contribution_used_raises {row : SkillEvidenceEvent}
    (hkey : ledger.events.Keyed SkillEvidenceEvent.id) (hrow : row ∈ ledger.events.rows)
    (hof : row.Of target.ownerId target.configSeedVersionId target.competencyId
      target.formulaVersion)
    (hreads : Reads ledger.seeds row event) (hqual : event.qualifyingForLevel = true)
    (hwtd : Weighed formula event) (hadjs : Adjusts formula event adjusted) :
    Raises (fun error => error = ⟨"discounted snapshot event weight is invalid"⟩)
      (contribution ledger target (usedEntry adjusted)) := by
  by_cases hpos : adjusted.item.inclusion = .discountedSameDay → 0 < adjusted.item.usedWeight
  · rw [contribution_used hkey hrow hof hreads hqual hwtd hadjs hpos]
    exact raises_ok _
  · push Not at hpos
    have hid : adjusted.item.eventId = row.id := hadjs.item_id.trans hreads.id
    rw [contribution, usedEntry, hid, contribution_find? hkey hrow hof]
    simp only [hpos.1]
    apply Raises.bind
    · apply raises_raiseFirst
      simp
    · intro _ _
      exact raises_ok _

theorem contribution_discounted {entry : ManifestEntry} {counted : Option Contribution}
    (h : contribution ledger target entry = .ok counted)
    (hdisc : entry.inclusionCode = .discountedSameDay) : 0 < entry.effectiveWeight := by
  unfold contribution at h
  split at h
  · rw [hdisc] at h
    simp only [bind_ok_iff] at h
    obtain ⟨_, hchk, -⟩ := h
    rw [raiseFirst_eq_ok] at hchk
    simp only [List.mem_singleton, forall_eq, Bool.or_eq_false_iff, decide_eq_false_iff_not] at hchk
    exact not_le.mp hchk.1.2
  · cases h

/-- `uq_exercise_type_versions_owner_type_mapping` -/
def UniqueTypes (seeds : Seeds) : Prop :=
  ∀ row ∈ seeds.exerciseTypes.rows, ∀ other ∈ seeds.exerciseTypes.rows,
    row.ownerId = other.ownerId → row.exerciseType = other.exerciseType →
    row.mappingVersion = other.mappingVersion → row = other

theorem UniqueTypes.eq_of_exerciseType {bundle : ConfigBundle} {row other : ExerciseTypeVersion}
    (huniq : UniqueTypes ledger.seeds) (hseed : Seeded ledger.seeds ownerId configId bundle)
    (hrow : row ∈ ledger.seeds.exerciseTypes.rows)
    (ho : other ∈ ledger.seeds.exerciseTypes.rows)
    (hrowOwn : row.ownerId = ownerId) (hotherOwn : other.ownerId = ownerId)
    (hrowCfg : row.configSeedVersionId = configId)
    (hotherCfg : other.configSeedVersionId = configId)
    (htype : row.exerciseType = other.exerciseType) : row = other := by
  obtain ⟨exercise, hexer, hrowSeed⟩ := hseed.exercises row hrow hrowOwn hrowCfg
  obtain ⟨another, hanother, hotherSeed⟩ :=
    hseed.exercises other ho hotherOwn hotherCfg
  have hslug : exercise.slug = another.slug := by
    rw [← hrowSeed.slug, ← hotherSeed.slug, htype]
  have hsame := List.inj_on_of_nodup_map bundle.exercises_nodup hexer hanother hslug
  apply huniq row hrow other ho (hrowOwn.trans hotherOwn.symm) htype
  rw [hrowSeed.version, hotherSeed.version, hsame]

/-- The exercise types of the evidence and the stored exercise versions tell
the same events apart. -/
theorem Evidences.exerciseType_iff {bundle : ConfigBundle}
    (h : Evidences ledger ownerId configId skillId version evidence)
    (huniq : UniqueTypes ledger.seeds) (hseed : Seeded ledger.seeds ownerId configId bundle)
    (hkey : ledger.events.Keyed SkillEvidenceEvent.id) {other : SkillEvidence}
    (hev : event ∈ evidence) (ho : other ∈ evidence) :
    event.exerciseType = other.exerciseType ↔
      storedVersion ledger event.eventId = storedVersion ledger other.eventId := by
  obtain ⟨row, hrow, hrowOf, hreads⟩ := h.reads event hev
  obtain ⟨row', hrow', hrowOf', hreads'⟩ := h.reads other ho
  obtain ⟨exercise, hexer, hown, hcfg, hid, htype⟩ := hreads.exercise
  obtain ⟨exercise', hexer', hown', hcfg', hid', htype'⟩ := hreads'.exercise
  rw [hreads.id, hreads'.id, storedVersion_eq hkey hrow, storedVersion_eq hkey hrow', ← hid,
    ← hid', ← htype, ← htype']
  constructor
  · intro hsame
    rw [huniq.eq_of_exerciseType hseed hexer hexer' (hown.trans hrowOf.1)
      (hown'.trans hrowOf'.1) (hcfg.trans hrowOf.2.1) (hcfg'.trans hrowOf'.2.1) hsame]
  · intro hsame
    rw [hseed.exercises_keyed.eq_of_key hexer hexer' hsame]

section Recomputation

variable {seen : List (String × String × Int)} {selected : List SkillEvidence}

theorem adjustAll_usedWeight (h : adjusted ∈ adjustAll formula seen selected) :
    adjusted.event.effectiveWeight = adjusted.item.usedWeight ∧
      adjusted.event.eventId = adjusted.item.eventId := by
  obtain ⟨event, -, hadjs⟩ := mem_adjustAll h
  rw [hadjs.event_eq]
  exact ⟨rfl, hadjs.item_id.symm⟩

theorem counted_weights (ledger : Ledger) :
    ((adjustAll formula seen selected).map (counted ledger)).map Contribution.weight =
      ((adjustAll formula seen selected).map Adjusted.event).map SkillEvidence.effectiveWeight := by
  rw [List.map_map, List.map_map]
  apply List.map_congr_left
  intro adjusted hadj
  exact (adjustAll_usedWeight hadj).1.symm

theorem counted_scores (ledger : Ledger) :
    (((adjustAll formula seen selected).map (counted ledger)).map fun item =>
        item.performanceScore * item.weight) =
      ((adjustAll formula seen selected).map Adjusted.event).map fun event =>
        event.performanceScore * event.effectiveWeight := by
  rw [List.map_map, List.map_map]
  apply List.map_congr_left
  intro adjusted hadj
  show adjusted.event.performanceScore * adjusted.item.usedWeight =
    adjusted.event.performanceScore * adjusted.event.effectiveWeight
  rw [(adjustAll_usedWeight hadj).1]

theorem counted_versions (ledger : Ledger) :
    ((adjustAll formula seen selected).map (counted ledger)).map
        Contribution.exerciseTypeVersionId =
      selected.map fun event => storedVersion ledger event.eventId := by
  rw [← map_adjustAll seen (fun event => storedVersion ledger event.eventId) fun _ _ => rfl,
    List.map_map]
  apply List.map_congr_left
  intro adjusted hadj
  show storedVersion ledger adjusted.item.eventId = storedVersion ledger adjusted.event.eventId
  rw [(adjustAll_usedWeight hadj).2]

theorem usedWeights_hasPlaces :
    HasPlaces 6 (((adjustAll formula seen selected).map Adjusted.event).map
      SkillEvidence.effectiveWeight).sum := by
  apply hasPlaces_sum
  intro wt hwt
  rw [List.map_map] at hwt
  obtain ⟨adjusted, hadj, rfl⟩ := List.mem_map.mp hwt
  obtain ⟨event, -, hadjs⟩ := mem_adjustAll hadj
  show HasPlaces 6 adjusted.event.effectiveWeight
  rw [(adjustAll_usedWeight hadj).1]
  rcases hadjs.used with ⟨-, hval⟩ | ⟨-, hval⟩
  · rw [hval]
    exact hasPlaces_quantize 6 _
  · rw [hval]
    exact hasPlaces_quantize 6 _

end Recomputation

theorem reproduces_estimate {bundle : ConfigBundle} {skill : Competency}
    {prepared : PreparedEvaluation} (now : Instant) (sequence : Nat)
    (h : Evidences ledger ownerId configId skillId version evidence)
    (huniq : UniqueTypes ledger.seeds) (hseed : Seeded ledger.seeds ownerId configId bundle)
    (hkey : ledger.events.Keyed SkillEvidenceEvent.id)
    (hskill : ∃ config ∈ bundle.skills, SeededSkill skill config)
    (hprior : prepared.formula.priorWeight = 2) :
    reproduces (newSnapshot skill prepared now evidence (estimateOf skill.baselineLevel
        skill.monthOneTarget skill.finalTarget evidence prepared.formula prepared.evaluatedAt)
        sequence 0) skill
      ((adjustAll prepared.formula [] (window evidence prepared.formula prepared.evaluatedAt)).map
        (counted ledger)) = true := by
  obtain ⟨config, -, -, -, hmonth, hfinal⟩ := hskill
  have hmonthPl : HasPlaces 3 skill.monthOneTarget := by
    rw [hmonth]
    exact (config.scores_bounded config.monthOneTarget (by simp)).2.2
  have hfinalPl : HasPlaces 3 skill.finalTarget := by
    rw [hfinal]
    exact (config.scores_bounded config.finalTarget (by simp)).2.2
  set selected := window evidence prepared.formula prepared.evaluatedAt with hsel
  set estimate := estimateOf skill.baselineLevel skill.monthOneTarget skill.finalTarget evidence
    prepared.formula prepared.evaluatedAt with hestimate
  set weight := (((adjustAll prepared.formula [] selected).map Adjusted.event).map
    SkillEvidence.effectiveWeight).sum with hwt
  have htot : estimate.totalEffectiveWeight = quantize 6 weight := rfl
  have hlevel : estimate.estimate = quantize 3 ((skill.baselineLevel * 2 +
      (((adjustAll prepared.formula [] selected).map Adjusted.event).map fun event =>
        event.performanceScore * event.effectiveWeight).sum) / (2 + weight)) := by
    have hrounded : quantize 6 weight = weight := usedWeights_hasPlaces.quantize_eq
    rw [← hrounded, ← hprior]
    rfl
  have hlevelPl : HasPlaces 3 estimate.estimate := by
    rw [hlevel]
    exact hasPlaces_quantize 3 _
  have hcnt : estimate.confidence.exerciseTypeCount =
      (selected.map fun event => storedVersion ledger event.eventId).dedup.length := by
    have hconfidence : estimate.confidence.exerciseTypeCount =
        (selected.map SkillEvidence.exerciseType).dedup.length := confidence_exerciseTypeCount
    rw [hconfidence]
    apply length_dedup_map_eq
    intro event hev other ho
    exact h.exerciseType_iff huniq hseed hkey (mem_window hev).1 (mem_window ho).1
  have hqual : estimate.qualifyingEventCount =
      ((adjustAll prepared.formula [] selected).map (counted ledger)).length := by
    show (((adjustAll prepared.formula [] selected).map Adjusted.event)).length = _
    rw [List.length_map, List.length_map]
  have hmonthGap : estimate.monthOneTargetGap =
      quantize 3 (skill.monthOneTarget - estimate.estimate) :=
    (hmonthPl.sub hlevelPl).quantize_eq.symm
  have hfinalGap : estimate.finalTargetGap =
      quantize 3 (skill.finalTarget - estimate.estimate) :=
    (hfinalPl.sub hlevelPl).quantize_eq.symm
  simp only [reproduces, newSnapshot, counted_weights, counted_scores, counted_versions, ← hwt,
    ← hlevel, htot, hqual, hcnt, hmonthGap, hfinalGap, beq_self_eq_true, Bool.and_self]

/-! ## The snapshot -/

/-- Every manifest entry but a discount that rounds to nothing is accepted. -/
theorem Evidences.contributions (target : SkillSnapshot)
    (h : Evidences ledger target.ownerId target.configSeedVersionId target.competencyId
      target.formulaVersion evidence)
    (hkey : ledger.events.Keyed SkillEvidenceEvent.id)
    (hwtd : ∀ event ∈ evidence, Weighed formula event)
    (hdiscounts : DiscountsCount formula (window evidence formula asOf)) :
    ((adjustAll formula [] (window evidence formula asOf)).map usedEntry ++
        (fittingEvents evidence formula asOf).map excludedEntry).mapM (contribution ledger target) =
      .ok ((adjustAll formula [] (window evidence formula asOf)).map
          (fun adjusted => some (counted ledger adjusted)) ++
        (fittingEvents evidence formula asOf).map fun _ => none) := by
  have hpos := (adjustAll_discounts_iff fun event hev =>
    (hwtd event (mem_window hev).1).places).mpr hdiscounts
  rw [mapM_ok_iff]
  apply List.rel_append
  · rw [List.forall₂_map_left_iff, List.forall₂_map_right_iff, List.forall₂_same]
    intro adjusted hadj
    obtain ⟨event, hev, hadjs⟩ := mem_adjustAll hadj
    obtain ⟨hmem, hqual, -⟩ := mem_window hev
    obtain ⟨row, hrow, hof, hreads⟩ := h.reads event hmem
    exact contribution_used hkey hrow hof hreads hqual (hwtd event hmem) hadjs
      (hpos adjusted hadj)
  · rw [List.forall₂_map_left_iff, List.forall₂_map_right_iff, List.forall₂_same]
    intro event hev
    obtain ⟨row, hrow, hof, hreads⟩ := h.reads event (mem_fittingEvents hev).1
    exact contribution_excluded hkey hrow hof hreads

theorem counted_filterMap (ledger : Ledger) (used : List Adjusted) (excluded : List SkillEvidence) :
    (used.map (fun adjusted => some (counted ledger adjusted)) ++
      excluded.map fun _ => none).filterMap id = used.map (counted ledger) := by
  simp [List.filterMap_append, List.filterMap_map]

theorem Evidences.weighed {skill : Competency}
    (h : Evidences ledger ownerId configId skill.id version evidence)
    (hkey : ledger.events.Keyed SkillEvidenceEvent.id)
    (hsto : ∀ row ∈ ledger.events.rows, row.Of ownerId configId skill.id version →
      StoredEvent formula row) : ∀ event ∈ evidence, Weighed formula event := by
  intro event hev
  obtain ⟨row, hrow, hof, hreads⟩ := h.reads event hev
  have hcols := hsto row hrow hof
  constructor
  · rw [hreads.id]
    exact hkey.pos row hrow
  · rw [hreads.weight]
    exact hcols.weight_nonneg
  · rw [hreads.weight]
    exact hcols.weight_le
  · rw [hreads.weight]
    exact hcols.weight_places

theorem estimateSkill_accepts {bundle : ConfigBundle} {skill : Competency}
    (hskill : ∃ config ∈ bundle.skills, SeededSkill skill config)
    (hnd : (evidence.map SkillEvidence.eventId).Nodup)
    (hwtd : ∀ event ∈ evidence, Weighed formula event) :
    estimateSkill skill.baselineLevel skill.monthOneTarget skill.finalTarget evidence formula
        asOf =
      .ok (estimateOf skill.baselineLevel skill.monthOneTarget skill.finalTarget evidence formula
        asOf) := by
  obtain ⟨config, -, -, hbase, hmonth, hfinal⟩ := hskill
  have hbd : ∀ score ∈ [skill.baselineLevel, skill.monthOneTarget, skill.finalTarget],
      0 ≤ score ∧ score ≤ 4 := by
    rw [hbase, hmonth, hfinal]
    intro score hscore
    have hbounded := config.scores_bounded score hscore
    exact ⟨hbounded.1, hbounded.2.1⟩
  have hcap : (evidence.any fun event => decide (formula.maximumEffectiveWeightPerEvent <
      event.effectiveWeight)) = false := by
    rw [List.any_eq_false]
    intro event hev
    simpa using (hwtd event hev).le
  refine bind_ok_iff.mpr ⟨(), ?_, rfl⟩
  simp only [List.mem_cons, List.not_mem_nil, or_false, forall_eq_or_imp, forall_eq] at hbd
  rw [raiseFirst_eq_ok]
  simp [estimateChecks, hbd, hcap, hnd]

def snapshotOf (skill : Competency) (prepared : PreparedEvaluation) (now : Instant)
    (evidence : List SkillEvidence) (sequence : Nat) : SkillSnapshot :=
  newSnapshot skill prepared now evidence (estimateOf skill.baselineLevel skill.monthOneTarget
    skill.finalTarget evidence prepared.formula prepared.evaluatedAt) sequence 0

theorem snapshot_payload {prepared : PreparedEvaluation} (skill : Competency) (now : Instant)
    (sequence : Nat) (hnd : (evidence.map SkillEvidence.eventId).Nodup)
    (hwtd : ∀ event ∈ evidence, Weighed prepared.formula event)
    (hwin : prepared.formula.latestQualifyingEvents ≤ 24) :
    let target := snapshotOf skill prepared now evidence sequence
    structuredPayload (snapshotManifestValid target.contributingEventManifest &&
        target.confidenceBasis.valid && target.trendBasis.valid) = .ok () ∧
      ∀ unlisted confidence trend : EvidenceContractError, raiseFirst [
        (!target.confidenceBasis.eventIds.all
              (target.contributingEventManifest.map ManifestEntry.eventId).contains ||
            !target.trendBasis.eventIds.all
              (target.contributingEventManifest.map ManifestEntry.eventId).contains, unlisted),
        (!target.confidenceCode.allows target.confidenceBasis.basisCode, confidence),
        (!target.trendCode.allows target.trendBasis.basisCode, trend)] = .ok () := by
  intro target
  have hentries : target.contributingEventManifest = _ :=
    snapshotManifest_eq skill.baselineLevel skill.monthOneTarget skill.finalTarget hnd hwin
  have hlist : ∀ id ∈ (window evidence prepared.formula prepared.evaluatedAt).map
      SkillEvidence.eventId, id ∈ target.contributingEventManifest.map ManifestEntry.eventId := by
    intro id hid
    rw [← map_adjustAll [] SkillEvidence.eventId fun _ _ => rfl] at hid
    obtain ⟨adjusted, hadj, rfl⟩ := List.mem_map.mp hid
    rw [hentries, List.map_append, List.map_map, List.mem_append]
    left
    rw [(adjustAll_usedWeight hadj).2]
    exact List.mem_map_of_mem hadj
  have hconfidence : target.confidenceBasis.eventIds.Subperm
      ((window evidence prepared.formula prepared.evaluatedAt).map SkillEvidence.eventId) :=
    confidence_ids.subperm
  have htrend : target.trendBasis.eventIds.Subperm
      ((window evidence prepared.formula prepared.evaluatedAt).map SkillEvidence.eventId) := by
    have hids := trend_ids ((usedEvents evidence prepared.formula
      prepared.evaluatedAt).map SkillEvidence.trendEvent) prepared.formula.trend
    rw [List.map_map] at hids
    rw [← usedEvents_map SkillEvidence.eventId fun _ _ => rfl]
    exact hids
  have hmaniVal : snapshotManifestValid target.contributingEventManifest = true := by
    rw [hentries]
    exact snapshotManifestValid_window hnd hwtd hwin
  have hall : ∀ ids : List Nat, ids.Subperm
      ((window evidence prepared.formula prepared.evaluatedAt).map SkillEvidence.eventId) →
      ids.all (target.contributingEventManifest.map ManifestEntry.eventId).contains = true := by
    intro ids hids
    rw [List.all_eq_true]
    intro id hid
    rw [List.contains_iff_mem]
    exact hlist id (hids.subset hid)
  have hconfidenceCode : target.confidenceCode.allows target.confidenceBasis.basisCode = true :=
    confidence_allows _
  have htrendCode : target.trendCode.allows target.trendBasis.basisCode = true :=
    trend_allows trend_code_ne_firstScore
  constructor
  · rw [hmaniVal, basis_valid hnd hwtd hwin hconfidence,
      basis_valid hnd hwtd hwin htrend]
    rfl
  · intro _ _ _
    rw [hall _ hconfidence, hall _ htrend, hconfidenceCode, htrendCode]
    rfl

section Verdict

variable {bundle : ConfigBundle} {prepared : PreparedEvaluation} {skill : Competency}

theorem validateSkillSnapshot_eq (now : Instant) (sequence : Nat)
    (hreads : Evidences ledger ownerId prepared.configSeedVersionId skill.id
      prepared.formula.version evidence)
    (hwtd : ∀ event ∈ evidence, Weighed prepared.formula event)
    (hseed : Seeded ledger.seeds ownerId prepared.configSeedVersionId bundle)
    (hskill : skill ∈ ledger.seeds.competencies.rows)
    (hcfg : skill.configSeedVersionId = prepared.configSeedVersionId)
    (hwin : prepared.formula.latestQualifyingEvents ≤ 24) :
    validateSkillSnapshot ledger (snapshotOf skill prepared now evidence sequence) = (do
      let contributions ← ((adjustAll prepared.formula [] (window evidence prepared.formula
          prepared.evaluatedAt)).map usedEntry ++ (fittingEvents evidence prepared.formula
            prepared.evaluatedAt).map excludedEntry).mapM
        (contribution ledger (snapshotOf skill prepared now evidence sequence))
      raiseFirst [(!reproduces (snapshotOf skill prepared now evidence sequence) skill
        (contributions.filterMap id), ⟨"snapshot estimate is not reproducible"⟩)]) := by
  set target := snapshotOf skill prepared now evidence sequence with htgt
  have hentries : target.contributingEventManifest = _ :=
    snapshotManifest_eq skill.baselineLevel skill.monthOneTarget skill.finalTarget hreads.nodup
      hwin
  have hpay := snapshot_payload skill now sequence hreads.nodup hwtd hwin
  rw [← htgt] at hpay
  obtain ⟨hval, hbases⟩ := hpay
  have hf : ledger.seeds.competencies.rows.find? (fun skill =>
      skill.ownerId = target.ownerId ∧ skill.configSeedVersionId = target.configSeedVersionId ∧
        skill.id = target.competencyId) = some skill := by
    apply hseed.competencies_keyed.find? hskill
    · simp [htgt, snapshotOf, newSnapshot, hcfg]
    · intro other ho
      simp only [decide_eq_true_eq] at ho
      exact ho.2.2
  rw [validateSkillSnapshot, hval, hf, ← hentries]
  show (raiseFirst _ >>= fun _ => _) = _
  rw [hbases]
  rfl

theorem snapshot_accepted (now : Instant) (sequence : Nat)
    (hreads : Evidences ledger ownerId prepared.configSeedVersionId skill.id
      prepared.formula.version evidence)
    (hwtd : ∀ event ∈ evidence, Weighed prepared.formula event)
    (hkey : ledger.events.Keyed SkillEvidenceEvent.id)
    (hseed : Seeded ledger.seeds ownerId prepared.configSeedVersionId bundle)
    (huniq : UniqueTypes ledger.seeds) (hskill : skill ∈ ledger.seeds.competencies.rows)
    (hown : skill.ownerId = ownerId)
    (hcfg : skill.configSeedVersionId = prepared.configSeedVersionId)
    (hprior : prepared.formula.priorWeight = 2)
    (hwin : prepared.formula.latestQualifyingEvents ≤ 24)
    (hdiscounts : DiscountsCount prepared.formula
      (window evidence prepared.formula prepared.evaluatedAt)) :
    validateSkillSnapshot ledger (snapshotOf skill prepared now evidence sequence) = .ok () := by
  have hof : Evidences ledger skill.ownerId prepared.configSeedVersionId skill.id
      prepared.formula.version evidence := by
    rw [hown]
    exact hreads
  have hcontributions := Evidences.contributions (snapshotOf skill prepared now evidence sequence)
    hof hkey hwtd hdiscounts
  have hreproduces : reproduces (snapshotOf skill prepared now evidence sequence) skill _ = true :=
    reproduces_estimate now sequence hreads huniq hseed hkey
      (hseed.skills skill hskill hown hcfg) hprior
  rw [validateSkillSnapshot_eq now sequence hreads hwtd hseed hskill hcfg hwin]
  refine bind_ok_iff.mpr ⟨_, hcontributions, ?_⟩
  rw [counted_filterMap, hreproduces]
  rfl

/-- Otherwise the first discount that rounds to nothing is what it fails on. -/
theorem snapshot_raises (now : Instant) (sequence : Nat)
    (hreads : Evidences ledger ownerId prepared.configSeedVersionId skill.id
      prepared.formula.version evidence)
    (hwtd : ∀ event ∈ evidence, Weighed prepared.formula event)
    (hkey : ledger.events.Keyed SkillEvidenceEvent.id)
    (hseed : Seeded ledger.seeds ownerId prepared.configSeedVersionId bundle)
    (hskill : skill ∈ ledger.seeds.competencies.rows) (hown : skill.ownerId = ownerId)
    (hcfg : skill.configSeedVersionId = prepared.configSeedVersionId)
    (hwin : prepared.formula.latestQualifyingEvents ≤ 24)
    (hnot : ¬DiscountsCount prepared.formula
      (window evidence prepared.formula prepared.evaluatedAt)) :
    validateSkillSnapshot ledger (snapshotOf skill prepared now evidence sequence) =
      .error ⟨"discounted snapshot event weight is invalid"⟩ := by
  have hof : Evidences ledger skill.ownerId prepared.configSeedVersionId skill.id
      prepared.formula.version evidence := by
    rw [hown]
    exact hreads
  rw [validateSkillSnapshot_eq now sequence hreads hwtd hseed hskill hcfg hwin]
  set target := snapshotOf skill prepared now evidence sequence
  have hraises : Raises (fun error => error = ⟨"discounted snapshot event weight is invalid"⟩)
      (((adjustAll prepared.formula [] (window evidence prepared.formula
          prepared.evaluatedAt)).map usedEntry ++ (fittingEvents evidence prepared.formula
            prepared.evaluatedAt).map excludedEntry).mapM (contribution ledger target)) := by
    apply raises_mapM
    intro entry hent
    rcases List.mem_append.mp hent with hused | hexcl
    · obtain ⟨adjusted, hadj, rfl⟩ := List.mem_map.mp hused
      obtain ⟨event, hev, hadjs⟩ := mem_adjustAll hadj
      obtain ⟨hmem, hqual, -⟩ := mem_window hev
      obtain ⟨row, hrow, hrowOf, hrowReads⟩ := hof.reads event hmem
      exact contribution_used_raises hkey hrow hrowOf hrowReads hqual (hwtd event hmem)
        hadjs
    · obtain ⟨event, hev, rfl⟩ := List.mem_map.mp hexcl
      obtain ⟨row, hrow, hrowOf, hrowReads⟩ := hof.reads event (mem_fittingEvents hev).1
      have hnone : contribution ledger target (excludedEntry event) = .ok none :=
        contribution_excluded hkey hrow hrowOf hrowReads
      rw [hnone]
      exact raises_ok none
  cases hloop : ((adjustAll prepared.formula [] (window evidence prepared.formula
      prepared.evaluatedAt)).map usedEntry ++ (fittingEvents evidence prepared.formula
        prepared.evaluatedAt).map excludedEntry).mapM (contribution ledger target) with
  | error error =>
    rw [hraises error hloop]
    rfl
  | ok contributions =>
    refine absurd ?_ hnot
    rw [← adjustAll_discounts_iff fun event hev => (hwtd event (mem_window hev).1).places]
    intro adjusted hadj hdisc
    rw [mapM_ok_iff] at hloop
    obtain ⟨counted, -, hcnt⟩ := forall₂_mem_right hloop.flip
      (List.mem_append_left _ (List.mem_map_of_mem hadj))
    exact contribution_discounted hcnt hdisc

end Verdict

def sampleEvent (id : Nat) (factor : Rat) (occurredAt : Instant) : SkillEvidenceEvent where
  id := id
  ownerId := 1
  configSeedVersionId := 1
  activityInstanceId := 7
  attemptId := some 3
  rubricEvaluationId := id
  rubricVersionId := 2
  exerciseTypeVersionId := 1
  competencyId := 3
  formulaVersion := "seed-v1"
  practiceMode := .timedAssessment
  assistanceCode := .noAi
  evaluatorKind := .aiRubricReviewer
  difficultyCode := .standard
  rawDimensionScores := [⟨id, 3, 1⟩]
  rawScoreNumerator := 3
  rawScoreDenominator := 1
  performanceScore := 3
  exerciseSkillImpact := 1
  practiceModeFactor := 9 / 10
  aiIndependenceFactor := 1
  evaluatorConfidenceFactor := factor
  difficultyFactor := 1
  effectiveWeight := quantize 6 (1 * (9 / 10) * 1 * factor * 1)
  qualifyingForLevel := true
  qualificationReasonCode := .qualifies
  explanation := ⟨.assessmentEvidence, [id], []⟩
  occurredAt := occurredAt
  createdAt := occurredAt

def sampleRubricEvaluation (id : Nat) (evaluatedAt : Instant) : RubricEvaluation where
  id := id
  ownerId := 1
  configSeedVersionId := 1
  activityInstanceId := 7
  attemptId := some 3
  rubricVersionId := 2
  evaluatorKind := .aiRubricReviewer
  inputManifest := ⟨[], []⟩
  evaluatedAt := evaluatedAt
  createdAt := evaluatedAt

def repeatedLedger (factor : Rat) : Ledger :=
  { sampleLedger shippedBundle with
    evaluations := ⟨[1, 2, 3].map fun id => sampleRubricEvaluation id id, 4⟩
    events := ⟨[1, 2, 3].map fun id => sampleEvent id factor id, 4⟩ }

/-- A snapshot reads the configuration, the formula and the time only. -/
def samplePrepared (evaluatedAt : Instant) : PreparedEvaluation where
  configSeedVersionId := 1
  activityId := 7
  attemptId := 3
  exerciseTypeVersionId := 1
  rubricVersionId := 2
  formula := shippedFormula
  exercise := assessmentExercise
  rubric := blockRubric
  evaluator := .aiRubricReviewer
  difficulty := .standard
  assistance := .noAi
  evaluatedAt := evaluatedAt
  inputArtifactIds := []
  inputObservationIds := []
  dimensions := []
  skillEvents := []
  portfolioComponents := none

def sqlSkill : Competency := ⟨3, 1, 1, "sql_reconciliation", 1, 2, 11 / 4⟩

theorem repeatedLedger_keyed (factor : Rat) :
    (repeatedLedger factor).events.Keyed SkillEvidenceEvent.id where
  next_pos := by simp [repeatedLedger]
  pos := by simp [repeatedLedger, sampleEvent]
  lt := by simp [repeatedLedger, sampleEvent]
  nodup := by simp [repeatedLedger, sampleEvent]

theorem repeatedLedger_seeded (factor : Rat) :
    Seeded (repeatedLedger factor).seeds 1 1 shippedBundle :=
  seeded_seedConfig seedsInv_empty (unseeded_empty 1 1)

theorem repeatedLedger_unique (factor : Rat) : UniqueTypes (repeatedLedger factor).seeds := by
  show UniqueTypes (sampleLedger shippedBundle).seeds
  unfold UniqueTypes
  decide

def snapshotVerdict (lineage : Lineage) (ledger : Ledger) (ownerId : Nat) (skill : Competency)
    (prepared : PreparedEvaluation) (now : Instant) :
    Except EvidenceEstimateError (Except EvidenceContractError Unit) := do
  let evidence ← skillEvidence lineage ledger ownerId prepared.configSeedVersionId skill.id
    prepared.formula.version
  let estimate ← estimateSkill skill.baselineLevel skill.monthOneTarget skill.finalTarget evidence
    prepared.formula prepared.evaluatedAt
  return validateSkillSnapshot ledger (newSnapshot skill prepared now evidence estimate 1 0)

end TamForge.Evidence
