import TamForge.Evidence.Proofs.Confidence
import TamForge.ProofSupport.Means

/-!
# The estimate is a mean

The rounded weights of `estimate_skill` add up to the rounded total that it
divides by.  Before its last rounding the estimate is therefore the mean of the
scores that contribute and the baseline, and it moves with each score.
-/

namespace TamForge.Evidence

open Models ProofSupport ProofSupport.Decimals

variable {formula : FormulaConfig} {asOf : Instant} {events selected : List SkillEvidence}
  {baseline monthOneTarget finalTarget : Rat}

/-! ## What the checks let through -/

/-- The events that `estimate_skill` takes: each one could be built, the
identities differ, and no weight is above the maximum of one event. -/
structure Accepted (formula : FormulaConfig) (events : List SkillEvidence) : Prop where
  built : ∀ event ∈ events, event.postInit = .ok event
  distinct : (events.map SkillEvidence.eventId).Nodup
  weights : ∀ event ∈ events, event.effectiveWeight ≤ formula.maximumEffectiveWeightPerEvent

variable {event : SkillEvidence}

theorem postInit_iff : event.postInit = .ok event ↔
    (0 ≤ event.performanceScore ∧ event.performanceScore ≤ 4) ∧ 0 ≤ event.effectiveWeight ∧
      nonblank event.exerciseType = true := by
  unfold SkillEvidence.postInit
  rw [bind_ok_iff]
  constructor
  · rintro ⟨_, hchk, -⟩
    rw [raiseFirst_eq_ok] at hchk
    simpa using hchk
  · intro h
    refine ⟨(), raiseFirst_eq_ok.mpr ?_, rfl⟩
    simpa using h

theorem estimateSkill_of_accepted (hbase : 0 ≤ baseline ∧ baseline ≤ 4)
    (hmonthOne : 0 ≤ monthOneTarget ∧ monthOneTarget ≤ 4)
    (hfinal : 0 ≤ finalTarget ∧ finalTarget ≤ 4) (h : Accepted formula events) :
    estimateSkill baseline monthOneTarget finalTarget events formula asOf =
      .ok (estimateOf baseline monthOneTarget finalTarget events formula asOf) := by
  have hchk : raiseFirst (estimateChecks baseline monthOneTarget finalTarget events formula) =
      .ok () := by
    rw [raiseFirst_eq_ok]
    have hweights := h.weights
    simp [estimateChecks, hbase, hmonthOne, hfinal, h.distinct]
    exact hweights
  unfold estimateSkill
  rw [hchk]
  rfl

/-! ## The used weights -/

def adjustedEvents (formula : FormulaConfig) (selected : List SkillEvidence) : List SkillEvidence :=
  (adjustAll formula [] selected).map Adjusted.event

theorem mem_used (h : event ∈ adjustedEvents formula selected) :
    ∃ original ∈ selected, event = { original with effectiveWeight := event.effectiveWeight } ∧
      HasPlaces 6 event.effectiveWeight ∧
      (0 ≤ original.effectiveWeight → 0 ≤ event.effectiveWeight) := by
  obtain ⟨adjusted, hadj, rfl⟩ := List.mem_map.mp h
  obtain ⟨original, horig, hadjs⟩ := mem_adjustAll hadj
  have hwt : adjusted.event.effectiveWeight = adjusted.item.usedWeight := by
    rw [hadjs.event_eq]
  refine ⟨original, horig, ?_, ?_, ?_⟩
  · rw [hwt]
    exact hadjs.event_eq
  · rw [hwt]
    rcases hadjs.used with ⟨-, hused⟩ | ⟨-, hused⟩
    · rw [hused]
      exact hasPlaces_quantize 6 _
    · rw [hused]
      exact hasPlaces_quantize 6 _
  · intro hpos
    rw [hwt]
    have hraw : 0 ≤ quantize 6 original.effectiveWeight := quantize_nonneg hpos
    rcases hadjs.used with ⟨-, hused⟩ | ⟨-, hused⟩
    · rw [hused]
      exact hraw
    · rw [hused]
      exact quantize_nonneg (mul_nonneg hraw formula.repetition_pos.le)

theorem totalWeight_used (formula : FormulaConfig) (selected : List SkillEvidence) :
    totalWeight (adjustedEvents formula selected) =
      ((adjustedEvents formula selected).map SkillEvidence.effectiveWeight).sum := by
  apply HasPlaces.quantize_eq
  apply hasPlaces_sum
  intro wt hwt
  obtain ⟨event, hev, rfl⟩ := List.mem_map.mp hwt
  obtain ⟨_, -, -, hpl, -⟩ := mem_used hev
  exact hpl

theorem estimate_eq_mean :
    (estimateOf baseline monthOneTarget finalTarget events formula asOf).estimate =
      quantize 3 (weightedMean baseline formula.priorWeight SkillEvidence.performanceScore
        SkillEvidence.effectiveWeight (adjustedEvents formula (window events formula asOf))) := by
  unfold weightedMean
  rw [← totalWeight_used]
  rfl

theorem used_weight_nonneg (h : Accepted formula events) :
    ∀ event ∈ adjustedEvents formula (window events formula asOf), 0 ≤ event.effectiveWeight := by
  intro event hev
  obtain ⟨original, horig, -, -, hpos⟩ := mem_used hev
  exact hpos (postInit_iff.mp (h.built original (mem_window horig).1)).2.1

/-! ## Other scores for the same events -/

def rescore (score : Nat → Rat → Rat) (event : SkillEvidence) : SkillEvidence :=
  { event with performanceScore := score event.eventId event.performanceScore }

variable {score : Nat → Rat → Rat}

theorem window_rescore : window (events.map (rescore score)) formula asOf =
    (window events formula asOf).map (rescore score) := by
  have hqual : qualifyingEvents (events.map (rescore score)) asOf =
      (qualifyingEvents events asOf).map (rescore score) := by
    unfold qualifyingEvents
    rw [List.filter_map]
    rfl
  have hsort : sortedBy SkillEvidence.key ((qualifyingEvents events asOf).map (rescore score)) =
      (sortedBy SkillEvidence.key (qualifyingEvents events asOf)).map (rescore score) :=
    (List.map_insertionSort (fun first second : SkillEvidence => keyLe first.key second.key)
      (fun first second : SkillEvidence => keyLe first.key second.key) (rescore score) _
        fun _ _ _ _ => Iff.rfl).symm
  unfold window
  rw [hqual, hsort, lastOf, lastOf, List.length_map, List.map_drop]

theorem used_rescore (seen : List (String × String × Int)) :
    (adjustAll formula seen (selected.map (rescore score))).map Adjusted.event =
      ((adjustAll formula seen selected).map Adjusted.event).map (rescore score) := by
  induction selected generalizing seen with
  | nil => rfl
  | cons event rest ih =>
    rw [List.map_cons, adjustAll, adjustAll, List.map_cons, List.map_cons, List.map_cons]
    congr 1
    exact ih (group event :: seen)

theorem estimate_mono (score : Nat → Rat → Rat) (hscore : ∀ event ∈ events,
      event.performanceScore ≤ score event.eventId event.performanceScore)
    (h : Accepted formula events) :
    (estimateOf baseline monthOneTarget finalTarget events formula asOf).estimate ≤
      (estimateOf baseline monthOneTarget finalTarget (events.map (rescore score)) formula
        asOf).estimate := by
  have hused : adjustedEvents formula (window (events.map (rescore score)) formula asOf) =
      (adjustedEvents formula (window events formula asOf)).map (rescore score) := by
    unfold adjustedEvents
    rw [window_rescore, used_rescore]
  have hmean : weightedMean baseline formula.priorWeight SkillEvidence.performanceScore
        SkillEvidence.effectiveWeight
        ((adjustedEvents formula (window events formula asOf)).map (rescore score)) =
      weightedMean baseline formula.priorWeight
        (fun event => score event.eventId event.performanceScore) SkillEvidence.effectiveWeight
        (adjustedEvents formula (window events formula asOf)) := by
    unfold weightedMean productSum
    rw [List.map_map, List.map_map]
    rfl
  rw [estimate_eq_mean, estimate_eq_mean, hused, hmean]
  apply quantize_mono
  apply weightedMean_mono formula.priorWeight_pos (used_weight_nonneg h)
  intro event hev
  obtain ⟨original, horig, heq, -, -⟩ := mem_used hev
  rw [heq]
  exact hscore original (mem_window horig).1

variable {before after : List SkillEvidence}

theorem raise_eq_rescore (raised : Rat)
    (hdist : ((before ++ event :: after).map SkillEvidence.eventId).Nodup) :
    before ++ { event with performanceScore := raised } :: after =
      (before ++ event :: after).map
        (rescore fun eventId old => if eventId = event.eventId then raised else old) := by
  have ho : ∀ other ∈ before ++ after, other.eventId ≠ event.eventId := by
    intro other hmem heq
    rw [List.map_append, List.map_cons, List.nodup_middle, ← List.map_append,
      List.nodup_cons] at hdist
    exact hdist.1 (heq ▸ List.mem_map_of_mem hmem)
  have hkeep : ∀ others : List SkillEvidence, (∀ other ∈ others, other.eventId ≠ event.eventId) →
      others.map (rescore fun eventId old =>
        if eventId = event.eventId then raised else old) = others := by
    intro others hos
    rw [List.map_congr_left (g := id), List.map_id]
    intro other hmem
    simp [rescore, hos other hmem]
  rw [List.map_append, List.map_cons, hkeep before fun other hmem =>
      ho other (List.mem_append_left _ hmem), hkeep after fun other hmem =>
      ho other (List.mem_append_right _ hmem)]
  simp [rescore]

/-! ## The bounds -/

def contributingScores (events : List SkillEvidence) (result : SkillEstimateResult) : List Rat :=
  (events.filter fun event => event.eventId ∈ result.contributingEventIds).map
    SkillEvidence.performanceScore

theorem used_score_contributes (h : event ∈ adjustedEvents formula (window events formula asOf)) :
    event.performanceScore ∈ contributingScores events
      (estimateOf baseline monthOneTarget finalTarget events formula asOf) := by
  obtain ⟨original, horig, heq, -, -⟩ := mem_used h
  have hcontributes : event.eventId ∈ (estimateOf baseline monthOneTarget finalTarget events
      formula asOf).contributingEventIds := List.mem_map_of_mem h
  rw [heq] at hcontributes
  rw [contributingScores, List.mem_map]
  refine ⟨original, ?_, by rw [heq]⟩
  rw [List.mem_filter, decide_eq_true_eq]
  exact ⟨(mem_window horig).1, hcontributes⟩

theorem score_bounds (h : Accepted formula events)
    (hev : event ∈ adjustedEvents formula (window events formula asOf)) :
    0 ≤ event.performanceScore ∧ event.performanceScore ≤ 4 := by
  obtain ⟨original, horig, heq, -, -⟩ := mem_used hev
  rw [heq]
  exact (postInit_iff.mp (h.built original (mem_window horig).1)).1

theorem estimate_bounds (hbase : 0 ≤ baseline ∧ baseline ≤ 4) (h : Accepted formula events) :
    0 ≤ (estimateOf baseline monthOneTarget finalTarget events formula asOf).estimate ∧
      (estimateOf baseline monthOneTarget finalTarget events formula asOf).estimate ≤ 4 := by
  have hzero : HasPlaces 3 (0 : Rat) := hasPlaces_zero 3
  have hfour : HasPlaces 3 (4 : Rat) := hasPlaces_iff.mpr ⟨4000, by norm_num⟩
  rw [estimate_eq_mean]
  constructor
  · apply hzero.le_quantize
    exact le_weightedMean formula.priorWeight_pos hbase.1 (used_weight_nonneg h)
      fun event hev => (score_bounds h hev).1
  · apply hfour.quantize_le
    exact weightedMean_le formula.priorWeight_pos hbase.2 (used_weight_nonneg h)
      fun event hev => (score_bounds h hev).2

theorem Accepted.raise {raised : Rat} (h : Accepted formula (before ++ event :: after))
    (hraised : event.performanceScore ≤ raised) (hbound : raised ≤ 4) :
    Accepted formula (before ++ { event with performanceScore := raised } :: after) := by
  have hev := postInit_iff.mp (h.built event (by simp))
  have hmem : ∀ other ∈ before ++ { event with performanceScore := raised } :: after,
      other = { event with performanceScore := raised } ∨ other ∈ before ++ event :: after := by
    intro other ho
    simp only [List.mem_append, List.mem_cons] at ho ⊢
    rcases ho with hb | heq | ha
    · exact Or.inr (Or.inl hb)
    · exact Or.inl heq
    · exact Or.inr (Or.inr (Or.inr ha))
  refine ⟨?_, ?_, ?_⟩
  · intro other ho
    rcases hmem other ho with rfl | hold
    · exact postInit_iff.mpr ⟨⟨hev.1.1.trans hraised, hbound⟩, hev.2⟩
    · exact h.built other hold
  · have hdist := h.distinct
    rw [List.map_append, List.map_cons] at hdist ⊢
    exact hdist
  · intro other ho
    rcases hmem other ho with rfl | hold
    · exact h.weights event (by simp)
    · exact h.weights other hold

end TamForge.Evidence
