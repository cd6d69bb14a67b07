import TamForge.Evidence.Confidence
import Mathlib.Data.List.Dedup

/-!
# The estimate of a skill

What `estimate_skill` does to the events of its window: each keeps its place
and its identity, and its weight is the stored one or the discounted one.
-/

namespace TamForge.Evidence

open Models ProofSupport ProofSupport.Decimals

/-! ## Lists -/

theorem sortedBy_perm {α : Type} (key : α → Instant × Nat) (events : List α) :
    (sortedBy key events).Perm events :=
  List.perm_insertionSort _ events

theorem lastOf_sublist {α : Type} (count : Nat) (events : List α) :
    (lastOf count events).Sublist events :=
  List.drop_sublist _ events

theorem length_lastOf_le {α : Type} (count : Nat) (events : List α) :
    (lastOf count events).length ≤ count := by
  rw [lastOf, List.length_drop]
  omega

theorem map_filterMap_sublist {α β γ : Type} {f : α → Option β} {g : β → γ} {key : α → γ}
    (h : ∀ item found, f item = some found → g found = key item) (items : List α) :
    ((items.filterMap f).map g).Sublist (items.map key) := by
  induction items with
  | nil => exact .slnil
  | cons item rest ih =>
    cases hf : f item with
    | none =>
      rw [List.filterMap_cons_none hf, List.map_cons]
      exact ih.cons _
    | some found =>
      rw [List.filterMap_cons_some hf, List.map_cons, List.map_cons, h item found hf]
      exact ih.cons_cons _

/-- Two readings of a list that tell the same items apart have the same number
of distinct values. -/
theorem length_dedup_map_eq {α β γ : Type} [DecidableEq β] [DecidableEq γ] {f : α → β}
    {g : α → γ} {items : List α}
    (h : ∀ item ∈ items, ∀ other ∈ items, f item = f other ↔ g item = g other) :
    (items.map f).dedup.length = (items.map g).dedup.length := by
  induction items with
  | nil => rfl
  | cons item rest ih =>
    have hrest := ih fun other ho another hanother =>
      h other (by simp [ho]) another (by simp [hanother])
    have hmem : f item ∈ rest.map f ↔ g item ∈ rest.map g := by
      rw [List.mem_map, List.mem_map]
      apply exists_congr
      intro other
      apply and_congr_right
      intro ho
      exact h other (by simp [ho]) item (by simp)
    rw [List.map_cons, List.map_cons]
    by_cases hseen : f item ∈ rest.map f
    · rw [List.dedup_cons_of_mem hseen, List.dedup_cons_of_mem (hmem.mp hseen), hrest]
    · rw [List.dedup_cons_of_notMem hseen, List.dedup_cons_of_notMem (mt hmem.mpr hseen),
        List.length_cons, List.length_cons, hrest]

/-! ## The window -/

variable {formula : FormulaConfig} {events : List SkillEvidence} {asOf : Instant}

variable {event : SkillEvidence}

theorem mem_window (h : event ∈ window events formula asOf) :
    event ∈ events ∧ event.qualifyingForLevel = true ∧ event.occurredAt ≤ asOf := by
  have hsort := (lastOf_sublist _ _).subset h
  have hqual := (sortedBy_perm _ _).mem_iff.mp hsort
  rw [qualifyingEvents, List.mem_filter, decide_eq_true_eq] at hqual
  exact hqual

theorem window_nodup (h : (events.map SkillEvidence.eventId).Nodup) :
    ((window events formula asOf).map SkillEvidence.eventId).Nodup := by
  have hqual : ((qualifyingEvents events asOf).map SkillEvidence.eventId).Nodup :=
    h.sublist (List.filter_sublist.map _)
  have hsort := ((sortedBy_perm SkillEvidence.key (qualifyingEvents events asOf)).map
    SkillEvidence.eventId).nodup_iff.mpr hqual
  exact hsort.sublist ((lastOf_sublist _ _).map _)

theorem length_window_le : (window events formula asOf).length ≤ formula.latestQualifyingEvents :=
  length_lastOf_le _ _

/-! ## Same-day discounts -/

structure Adjusts (formula : FormulaConfig) (event : SkillEvidence) (adjusted : Adjusted) :
    Prop where
  event_eq : adjusted.event = { event with effectiveWeight := adjusted.item.usedWeight }
  item_id : adjusted.item.eventId = event.eventId
  used : adjusted.item.inclusion = .included ∧
      adjusted.item.usedWeight = quantize 6 event.effectiveWeight ∨
    adjusted.item.inclusion = .discountedSameDay ∧
      adjusted.item.usedWeight =
        quantize 6 (quantize 6 event.effectiveWeight * formula.sameDayRepetitionFactor)

theorem adjust_adjusts (formula : FormulaConfig) (seen : List (String × String × Int))
    (event : SkillEvidence) : Adjusts formula event (adjust formula seen event) := by
  refine ⟨rfl, rfl, ?_⟩
  by_cases hrank : formula.fullWeightSameDayLimit < seen.count (group event) + 1
  · right
    simp [adjust, hrank]
  · left
    simp [adjust, hrank]

theorem adjustAll_adjusts (formula : FormulaConfig) (seen : List (String × String × Int))
    (events : List SkillEvidence) :
    List.Forall₂ (Adjusts formula) events (adjustAll formula seen events) := by
  induction events generalizing seen with
  | nil => exact .nil
  | cons event rest ih => exact .cons (adjust_adjusts formula seen event) (ih _)

variable {seen : List (String × String × Int)}

theorem mem_adjustAll {adjusted : Adjusted} (h : adjusted ∈ adjustAll formula seen events) :
    ∃ event ∈ events, Adjusts formula event adjusted :=
  forall₂_mem_right (adjustAll_adjusts formula seen events) h

theorem length_adjustAll (seen : List (String × String × Int)) :
    (adjustAll formula seen events).length = events.length :=
  (adjustAll_adjusts formula seen events).length_eq.symm

theorem map_adjustAll {α : Type} (seen : List (String × String × Int)) (f : SkillEvidence → α)
    (hf : ∀ event wt, f { event with effectiveWeight := wt } = f event) :
    (adjustAll formula seen events).map (fun adjusted => f adjusted.event) = events.map f := by
  induction events generalizing seen with
  | nil => rfl
  | cons event rest ih =>
    rw [adjustAll, List.map_cons, List.map_cons, ih, (adjust_adjusts formula seen event).event_eq,
      hf]

/-- The discount of an event: at least as many earlier ones of its group as
count in full. -/
def Discounted (formula : FormulaConfig) (earlier : List SkillEvidence) (event : SkillEvidence) :
    Prop :=
  formula.fullWeightSameDayLimit ≤ (earlier.map group).count (group event)

/-- Every discounted event of the window keeps at least half a unit of the last
place of its weight column. -/
def DiscountsCount (formula : FormulaConfig) (selected : List SkillEvidence) : Prop :=
  ∀ earlier event later, selected = earlier ++ event :: later → Discounted formula earlier event →
    1 / 2 ≤ event.effectiveWeight * formula.sameDayRepetitionFactor * (10 ^ 6 : Nat)

theorem adjust_discount_pos_iff (hpl : HasPlaces 6 event.effectiveWeight) :
    ((adjust formula seen event).item.inclusion = .discountedSameDay →
        0 < (adjust formula seen event).item.usedWeight) ↔
      (formula.fullWeightSameDayLimit ≤ seen.count (group event) →
        1 / 2 ≤ event.effectiveWeight * formula.sameDayRepetitionFactor * (10 ^ 6 : Nat)) := by
  rw [← quantize_pos_iff]
  by_cases hrank : formula.fullWeightSameDayLimit ≤ seen.count (group event)
  · have hlt : formula.fullWeightSameDayLimit < seen.count (group event) + 1 := by omega
    simp [adjust, hlt, hrank, hpl.quantize_eq]
  · have hlt : ¬formula.fullWeightSameDayLimit < seen.count (group event) + 1 := by omega
    simp [adjust, hlt, hrank]

/-- The loop over the window, by the groups it has seen. -/
theorem adjustAll_discounts_pos_iff (hpl : ∀ event ∈ events, HasPlaces 6 event.effectiveWeight)
    :
    (∀ adjusted ∈ adjustAll formula seen events,
        adjusted.item.inclusion = .discountedSameDay → 0 < adjusted.item.usedWeight) ↔
      ∀ earl event later, events = earl ++ event :: later →
        formula.fullWeightSameDayLimit ≤
          seen.count (group event) + (earl.map group).count (group event) →
        1 / 2 ≤ event.effectiveWeight * formula.sameDayRepetitionFactor * (10 ^ 6 : Nat) := by
  induction events generalizing seen with
  | nil => simp [adjustAll]
  | cons first rest ih =>
    rw [adjustAll, List.forall_mem_cons, adjust_discount_pos_iff (hpl first (by simp)),
      ih fun event hev => hpl event (by simp [hev])]
    constructor
    · rintro ⟨hfst, hrest⟩ earl event later heq
      cases earl with
      | nil =>
        rw [List.nil_append, List.cons.injEq] at heq
        rw [← heq.1]
        simpa using hfst
      | cons other earl =>
        rw [List.cons_append, List.cons.injEq] at heq
        intro hcnt
        refine hrest earl event later heq.2 ?_
        rw [List.map_cons, ← heq.1, List.count_cons] at hcnt
        rw [List.count_cons]
        omega
    · intro hall
      constructor
      · simpa using hall [] first rest rfl
      · intro earl event later heq hcnt
        refine hall (first :: earl) event later (by rw [heq]; rfl) ?_
        rw [List.count_cons] at hcnt
        rw [List.map_cons, List.count_cons]
        omega

theorem adjustAll_discounts_iff (hpl : ∀ event ∈ events, HasPlaces 6 event.effectiveWeight) :
    (∀ adjusted ∈ adjustAll formula [] events,
        adjusted.item.inclusion = .discountedSameDay → 0 < adjusted.item.usedWeight) ↔
      DiscountsCount formula events := by
  rw [adjustAll_discounts_pos_iff hpl]
  simp only [List.count_nil, Nat.zero_add]
  rfl

end TamForge.Evidence
