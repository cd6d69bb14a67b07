import Mathlib.Algebra.Order.BigOperators.Group.List
import Mathlib.Algebra.Order.Field.Basic
import Mathlib.Tactic.Linarith
import Mathlib.Tactic.Ring

/-!
# Weighted means with a prior

The mean of scores that a prior score weighs in: it lies between any bounds of
the scores, and grows with every score.
-/

namespace TamForge.ProofSupport

variable {K α : Type*} [Field K] [LinearOrder K] [IsStrictOrderedRing K]
  {score other weight : α → K} {items : List α} {prior priorWeight bound : K}

def productSum (score weight : α → K) (items : List α) : K :=
  (items.map fun item => score item * weight item).sum

def weightedMean (prior priorWeight : K) (score weight : α → K) (items : List α) : K :=
  (prior * priorWeight + productSum score weight items) /
    (priorWeight + (items.map weight).sum)

omit [LinearOrder K] [IsStrictOrderedRing K] in
@[simp] theorem productSum_nil : productSum score weight [] = 0 := rfl

omit [LinearOrder K] [IsStrictOrderedRing K] in
@[simp] theorem productSum_cons (item : α) : productSum score weight (item :: items) =
    score item * weight item + productSum score weight items := by
  simp [productSum]

theorem productSum_mono (score other : α → K) (hwt : ∀ item ∈ items, 0 ≤ weight item)
    (hscore : ∀ item ∈ items, score item ≤ other item) :
    productSum score weight items ≤ productSum other weight items := by
  induction items with
  | nil => exact le_refl _
  | cons item rest ih =>
    rw [productSum_cons, productSum_cons]
    have hfst := mul_le_mul_of_nonneg_right (hscore item (List.mem_cons_self ..))
      (hwt item (List.mem_cons_self ..))
    have hrest := ih (fun other ho => hwt other (List.mem_cons_of_mem _ ho))
      fun other ho => hscore other (List.mem_cons_of_mem _ ho)
    linarith

omit [LinearOrder K] [IsStrictOrderedRing K] in
theorem productSum_const : productSum (fun _ => bound) weight items =
    bound * (items.map weight).sum := by
  induction items with
  | nil => simp
  | cons item rest ih =>
    rw [productSum_cons, ih, List.map_cons, List.sum_cons]
    ring

theorem weight_sum_nonneg (hwt : ∀ item ∈ items, 0 ≤ weight item) :
    0 ≤ (items.map weight).sum := by
  apply List.sum_nonneg
  intro value hval
  obtain ⟨item, hitem, rfl⟩ := List.mem_map.mp hval
  exact hwt item hitem

theorem le_weightedMean (hprior : 0 < priorWeight) (hbound : bound ≤ prior)
    (hwt : ∀ item ∈ items, 0 ≤ weight item) (hscore : ∀ item ∈ items, bound ≤ score item) :
    bound ≤ weightedMean prior priorWeight score weight items := by
  have hpos : 0 < priorWeight + (items.map weight).sum :=
    add_pos_of_pos_of_nonneg hprior (weight_sum_nonneg hwt)
  have hsum := productSum_mono (fun _ => bound) score hwt hscore
  have hfst := mul_le_mul_of_nonneg_right hbound hprior.le
  rw [productSum_const] at hsum
  unfold weightedMean
  rw [le_div_iff₀ hpos, mul_add]
  exact add_le_add hfst hsum

theorem weightedMean_le (hprior : 0 < priorWeight) (hbound : prior ≤ bound)
    (hwt : ∀ item ∈ items, 0 ≤ weight item) (hscore : ∀ item ∈ items, score item ≤ bound) :
    weightedMean prior priorWeight score weight items ≤ bound := by
  have hpos : 0 < priorWeight + (items.map weight).sum :=
    add_pos_of_pos_of_nonneg hprior (weight_sum_nonneg hwt)
  have hsum := productSum_mono score (fun _ => bound) hwt hscore
  have hfst := mul_le_mul_of_nonneg_right hbound hprior.le
  rw [productSum_const] at hsum
  unfold weightedMean
  rw [div_le_iff₀ hpos, mul_add]
  exact add_le_add hfst hsum

theorem weightedMean_mono (hprior : 0 < priorWeight)
    (hwt : ∀ item ∈ items, 0 ≤ weight item)
    (hscore : ∀ item ∈ items, score item ≤ other item) :
    weightedMean prior priorWeight score weight items ≤
      weightedMean prior priorWeight other weight items := by
  have hpos : 0 < priorWeight + (items.map weight).sum :=
    add_pos_of_pos_of_nonneg hprior (weight_sum_nonneg hwt)
  exact div_le_div_of_nonneg_right (by linarith [productSum_mono score other hwt hscore]) hpos.le

/-! ## The extremes of a list -/

def lowest (first : K) (values : List K) : K :=
  values.foldl min first

def highest (first : K) (values : List K) : K :=
  values.foldl max first

omit [Field K] [IsStrictOrderedRing K] in
theorem lowest_le (first : K) (vals : List K) :
    lowest first vals ≤ first ∧ ∀ value ∈ vals, lowest first vals ≤ value := by
  unfold lowest
  induction vals generalizing first with
  | nil => simp
  | cons value rest ih =>
    rw [List.foldl_cons]
    obtain ⟨hfst, hrest⟩ := ih (min first value)
    refine ⟨hfst.trans (min_le_left _ _), ?_⟩
    rw [List.forall_mem_cons]
    exact ⟨hfst.trans (min_le_right _ _), hrest⟩

omit [Field K] [IsStrictOrderedRing K] in
theorem le_highest (first : K) (values : List K) :
    first ≤ highest first values ∧ ∀ value ∈ values, value ≤ highest first values := by
  unfold highest
  induction values generalizing first with
  | nil => simp
  | cons value rest ih =>
    rw [List.foldl_cons]
    obtain ⟨hfst, hrest⟩ := ih (max first value)
    refine ⟨(le_max_left _ _).trans hfst, ?_⟩
    rw [List.forall_mem_cons]
    exact ⟨(le_max_right _ _).trans hfst, hrest⟩

end TamForge.ProofSupport
