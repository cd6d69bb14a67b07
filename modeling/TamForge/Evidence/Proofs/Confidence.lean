import TamForge.Evidence.Proofs.Estimates
import TamForge.Evidence.Seed

/-!
# Confidence grows with evidence

`classify_confidence` reads a total, a count and three existence questions of
the qualifying events.  More or heavier events never answer one of them the
other way, so the level never falls.
-/

namespace TamForge.Evidence

open Models ProofSupport ProofSupport.Decimals

/-- `low < medium < high` -/
def ConfidenceCode.rank : ConfidenceCode → Nat
  | low => 0
  | medium => 1
  | high => 2

variable {rules : ConfidenceRules} {formula : FormulaConfig} {asOf : Instant}
  {events more qualifying others : List SkillEvidence}

def reachesHigh (rules : ConfidenceRules) (asOf : Instant) (qualifying : List SkillEvidence) :
    Bool :=
  decide (rules.highMinimumEffectiveWeight ≤ totalWeight qualifying) &&
    decide (rules.highMinimumExerciseTypes ≤
      (qualifying.map SkillEvidence.exerciseType).dedup.length) &&
    (qualifying.any fun event =>
      (event.practiceMode == .timedAssessment || event.practiceMode == .mockInterview) &&
        decide (asOf - seconds (86400 * rules.highRecentAssessmentDays) ≤ event.occurredAt ∧
          event.occurredAt ≤ asOf)) &&
    ((qualifying.any fun event => event.reviewedArtifact || event.scoredRecording) ||
      !rules.highRequiresReviewedArtifactOrRecording)

def reachesMedium (rules : ConfidenceRules) (qualifying : List SkillEvidence) : Bool :=
  decide (rules.mediumMinimumEffectiveWeight ≤ totalWeight qualifying) &&
    decide (rules.mediumMinimumExerciseTypes ≤
      (qualifying.map SkillEvidence.exerciseType).dedup.length) &&
    ((qualifying.any fun event =>
        event.practiceMode == .independentPractice && event.attemptKind == .attemptA) ||
      !rules.mediumRequiresIndependentAttempt)

theorem classifyConfidence_code : (classifyConfidence events formula asOf).code =
    if reachesHigh formula.confidence asOf
        (sortedBy SkillEvidence.key (qualifyingEvents events asOf)) then .high
    else if reachesMedium formula.confidence
        (sortedBy SkillEvidence.key (qualifyingEvents events asOf)) then .medium
    else .low := by
  unfold classifyConfidence reachesHigh reachesMedium
  dsimp only
  split_ifs <;> rfl

/-- Every event is still there, perhaps with another weight, and the weights
are at least as large in sum. -/
structure Covered (qualifying others : List SkillEvidence) : Prop where
  weight_le : (qualifying.map SkillEvidence.effectiveWeight).sum ≤
    (others.map SkillEvidence.effectiveWeight).sum
  covered : ∀ event ∈ qualifying, ∃ weight, { event with effectiveWeight := weight } ∈ others

theorem Covered.perm {sorted sortedOthers : List SkillEvidence} (h : Covered qualifying others)
    (hperm : sorted.Perm qualifying) (hos : sortedOthers.Perm others) :
    Covered sorted sortedOthers where
  weight_le := by
    rw [(hperm.map _).sum_eq, (hos.map _).sum_eq]
    exact h.weight_le
  covered := by
    intro event hev
    obtain ⟨wt, hwt⟩ := h.covered event (hperm.mem_iff.mp hev)
    exact ⟨wt, hos.mem_iff.mpr hwt⟩

theorem Covered.totalWeight_le (h : Covered qualifying others) :
    totalWeight qualifying ≤ totalWeight others :=
  quantize_mono h.weight_le

theorem Covered.types_le (h : Covered qualifying others) :
    (qualifying.map SkillEvidence.exerciseType).dedup.length ≤
      (others.map SkillEvidence.exerciseType).dedup.length := by
  have hsub : (qualifying.map SkillEvidence.exerciseType).dedup ⊆
      (others.map SkillEvidence.exerciseType).dedup := by
    intro exercise hexer
    rw [List.mem_dedup, List.mem_map] at hexer ⊢
    obtain ⟨event, hev, rfl⟩ := hexer
    obtain ⟨wt, hwt⟩ := h.covered event hev
    exact ⟨_, hwt, rfl⟩
  exact (List.subperm_of_subset (List.nodup_dedup _) hsub).length_le

theorem Covered.any (h : Covered qualifying others) {test : SkillEvidence → Bool}
    (htest : ∀ event wt, test { event with effectiveWeight := wt } = test event)
    (hany : qualifying.any test = true) : others.any test = true := by
  rw [List.any_eq_true] at hany ⊢
  obtain ⟨event, hev, hyes⟩ := hany
  obtain ⟨wt, hwt⟩ := h.covered event hev
  exact ⟨_, hwt, by rw [htest, hyes]⟩

theorem Covered.reachesHigh (h : Covered qualifying others)
    (hhigh : reachesHigh rules asOf qualifying = true) : reachesHigh rules asOf others = true := by
  unfold Evidence.reachesHigh at hhigh ⊢
  simp only [Bool.and_eq_true, decide_eq_true_eq, Bool.or_eq_true (List.any _ _)] at hhigh ⊢
  obtain ⟨⟨⟨hwt, htypes⟩, hrecent⟩, hrevd⟩ := hhigh
  refine ⟨⟨⟨hwt.trans h.totalWeight_le, htypes.trans h.types_le⟩, ?_⟩, ?_⟩
  · exact h.any (fun _ _ => rfl) hrecent
  · exact hrevd.imp_left fun hany => h.any (fun _ _ => rfl) hany

theorem Covered.reachesMedium (h : Covered qualifying others)
    (hmedium : reachesMedium rules qualifying = true) : reachesMedium rules others = true := by
  unfold Evidence.reachesMedium at hmedium ⊢
  simp only [Bool.and_eq_true, decide_eq_true_eq, Bool.or_eq_true (List.any _ _)] at hmedium ⊢
  obtain ⟨⟨hwt, htypes⟩, hindependent⟩ := hmedium
  refine ⟨⟨hwt.trans h.totalWeight_le, htypes.trans h.types_le⟩, ?_⟩
  exact hindependent.imp_left fun hany => h.any (fun _ _ => rfl) hany

theorem Covered.rank_le
    (h : Covered (qualifyingEvents events asOf) (qualifyingEvents more asOf)) :
    (classifyConfidence events formula asOf).code.rank ≤
      (classifyConfidence more formula asOf).code.rank := by
  have hsort := h.perm (sortedBy_perm SkillEvidence.key _) (sortedBy_perm SkillEvidence.key _)
  rw [classifyConfidence_code, classifyConfidence_code]
  by_cases hhigh : Evidence.reachesHigh formula.confidence asOf
      (sortedBy SkillEvidence.key (qualifyingEvents events asOf)) = true
  · rw [if_pos hhigh, if_pos (hsort.reachesHigh hhigh)]
  · rw [if_neg hhigh]
    by_cases hmedium : Evidence.reachesMedium formula.confidence
        (sortedBy SkillEvidence.key (qualifyingEvents events asOf)) = true
    · rw [if_pos hmedium, if_pos (hsort.reachesMedium hmedium)]
      split <;> simp [ConfidenceCode.rank]
    · rw [if_neg hmedium]
      exact Nat.zero_le _

theorem weight_nonneg_of_postInit {event : SkillEvidence} (h : event.postInit = .ok event) :
    0 ≤ event.effectiveWeight := by
  unfold SkillEvidence.postInit at h
  simp only [bind_ok_iff] at h
  obtain ⟨_, hchk, -⟩ := h
  rw [raiseFirst_eq_ok, List.forall_mem_cons, List.forall_mem_cons] at hchk
  simpa using hchk.2.1

theorem covered_insert (before after : List SkillEvidence) {event : SkillEvidence}
    (hwt : 0 ≤ event.effectiveWeight) :
    Covered (qualifyingEvents (before ++ after) asOf)
      (qualifyingEvents (before ++ event :: after) asOf) := by
  unfold qualifyingEvents
  rw [List.filter_append, List.filter_append, List.filter_cons]
  constructor
  · split
    · simp only [List.map_append, List.map_cons, List.sum_append, List.sum_cons]
      linarith
    · exact le_refl _
  · intro kept hkept
    refine ⟨kept.effectiveWeight, ?_⟩
    rw [List.mem_append] at hkept ⊢
    apply hkept.imp_right
    intro ha
    split
    · exact List.mem_cons_of_mem _ ha
    · exact ha

theorem covered_raise (before after : List SkillEvidence) {event : SkillEvidence} {wt : Rat}
    (hwt : event.effectiveWeight ≤ wt) :
    Covered (qualifyingEvents (before ++ event :: after) asOf)
      (qualifyingEvents (before ++ { event with effectiveWeight := wt } :: after) asOf) := by
  unfold qualifyingEvents
  rw [List.filter_append, List.filter_append, List.filter_cons, List.filter_cons]
  constructor
  · by_cases hquals : event.qualifyingForLevel = true ∧ event.occurredAt ≤ asOf
    · simp only [hquals, decide_true, if_true, and_self, List.map_append, List.map_cons,
        List.sum_append, List.sum_cons]
      linarith
    · simp only [hquals, decide_false, Bool.false_eq_true, if_false, le_refl]
  · intro kept hkept
    rw [List.mem_append] at hkept
    rcases hkept with hb | hkept
    · exact ⟨kept.effectiveWeight, List.mem_append_left _ hb⟩
    · by_cases hquals : event.qualifyingForLevel = true ∧ event.occurredAt ≤ asOf
      · rw [if_pos (by simpa using hquals), List.mem_cons] at hkept
        rw [if_pos (by simpa using hquals)]
        rcases hkept with rfl | ha
        · exact ⟨wt, List.mem_append_right _ (List.mem_cons_self ..)⟩
        · exact ⟨kept.effectiveWeight,
            List.mem_append_right _ (List.mem_cons_of_mem _ ha)⟩
      · rw [if_neg (by simpa using hquals)] at hkept
        rw [if_neg (by simpa using hquals)]
        exact ⟨kept.effectiveWeight, List.mem_append_right _ hkept⟩

/-- The level of confidence never falls when an event is added or its weight is
raised. -/
theorem confidence_monotone (formula : FormulaConfig) (asOf : Instant)
    (before after : List SkillEvidence) {event : SkillEvidence}
    (hevent : event.postInit = .ok event) :
    (classifyConfidence (before ++ after) formula asOf).code.rank ≤
        (classifyConfidence (before ++ event :: after) formula asOf).code.rank ∧
      ∀ weight, event.effectiveWeight ≤ weight →
        (classifyConfidence (before ++ event :: after) formula asOf).code.rank ≤
          (classifyConfidence (before ++ { event with effectiveWeight := weight } :: after)
            formula asOf).code.rank := by
  constructor
  · exact (covered_insert before after (weight_nonneg_of_postInit hevent)).rank_le
  · intro weight hweight
    exact (covered_raise before after hweight).rank_le

def sampleEvidence : SkillEvidence :=
  ⟨1, 3, 1, true, "tam_case", "prompt", 0, .independentPractice, .attemptA, false, false⟩

/-- The first event of a skill. -/
theorem confidence_monotone_sample :
    (classifyConfidence [] shippedFormula 0).code.rank ≤
        (classifyConfidence [sampleEvidence] shippedFormula 0).code.rank ∧
      ∀ weight, (1 : Rat) ≤ weight →
        (classifyConfidence [sampleEvidence] shippedFormula 0).code.rank ≤
          (classifyConfidence [{ sampleEvidence with effectiveWeight := weight }]
            shippedFormula 0).code.rank :=
  confidence_monotone shippedFormula 0 [] []
    (show sampleEvidence.postInit = .ok sampleEvidence from rfl)

end TamForge.Evidence
