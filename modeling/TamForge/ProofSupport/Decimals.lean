import Mathlib.Data.Rat.Floor
import Mathlib.Algebra.Order.Field.Rat
import Mathlib.Tactic.Linarith
import Mathlib.Tactic.NormNum

/-!
# Decimals as exact rationals

`quantize` is Python's `Decimal.quantize` with `ROUND_HALF_UP`: to the nearest
multiple of a power of ten, ties away from zero.  Sums, products and quotients
of decimals are exact.
-/

namespace TamForge.ProofSupport.Decimals

/-- A finite decimal with at most `places` digits after the point. -/
def HasPlaces (places : Nat) (value : Rat) : Prop :=
  (value * (10 ^ places : Nat)).den = 1

instance (places : Nat) (value : Rat) : Decidable (HasPlaces places value) :=
  inferInstanceAs (Decidable (_ = _))

/-- The nearest integer, ties away from zero. -/
def roundHalfUp (value : Rat) : Int :=
  if 0 ≤ value then (value + 1 / 2).floor else -(-value + 1 / 2).floor

/-- `value.quantize(Decimal(10) ** -places, rounding=ROUND_HALF_UP)` -/
def quantize (places : Nat) (value : Rat) : Rat :=
  roundHalfUp (value * (10 ^ places : Nat)) / (10 ^ places : Nat)

def roundHalfEven (value : Rat) : Int :=
  let below := value.floor
  if value - below < 1 / 2 then below
  else if 1 / 2 < value - below then below + 1
  else if below % 2 = 0 then below
  else below + 1

/-- `value.quantize(Decimal(10) ** -places)` in the default context. -/
def quantizeHalfEven (places : Nat) (value : Rat) : Rat :=
  roundHalfEven (value * (10 ^ places : Nat)) / (10 ^ places : Nat)

variable {places : Nat} {value other : Rat}

theorem scale_pos (places : Nat) : (0 : Rat) < (10 ^ places : Nat) := by
  exact_mod_cast Nat.pow_pos (by omega)

theorem hasPlaces_iff : HasPlaces places value ↔ ∃ n : Int, value * (10 ^ places : Nat) = n := by
  constructor
  · intro h
    exact ⟨(value * (10 ^ places : Nat)).num, (Rat.den_eq_one_iff _).mp h |>.symm⟩
  · rintro ⟨n, hn⟩
    rw [HasPlaces, hn]
    exact Rat.den_intCast n

theorem HasPlaces.add (h : HasPlaces places value) (ho : HasPlaces places other) :
    HasPlaces places (value + other) := by
  obtain ⟨n, hn⟩ := hasPlaces_iff.mp h
  obtain ⟨m, hm⟩ := hasPlaces_iff.mp ho
  refine hasPlaces_iff.mpr ⟨n + m, ?_⟩
  rw [add_mul, hn, hm, Int.cast_add]

theorem HasPlaces.sub (h : HasPlaces places value) (ho : HasPlaces places other) :
    HasPlaces places (value - other) := by
  obtain ⟨n, hn⟩ := hasPlaces_iff.mp h
  obtain ⟨m, hm⟩ := hasPlaces_iff.mp ho
  refine hasPlaces_iff.mpr ⟨n - m, ?_⟩
  rw [sub_mul, hn, hm, Int.cast_sub]

theorem hasPlaces_zero (places : Nat) : HasPlaces places 0 := by
  refine hasPlaces_iff.mpr ⟨0, ?_⟩
  simp

theorem hasPlaces_sum {vals : List Rat} (h : ∀ value ∈ vals, HasPlaces places value) :
    HasPlaces places vals.sum := by
  induction vals with
  | nil => exact hasPlaces_zero places
  | cons value rest ih =>
    rw [List.sum_cons]
    exact (h value (by simp)).add (ih fun other ho => h other (by simp [ho]))

theorem roundHalfUp_intCast (n : Int) : roundHalfUp (n : Rat) = n := by
  have hfloor : ∀ k : Int, ((k : Rat) + 1 / 2).floor = k := by
    intro k
    apply le_antisymm
    · rw [← Int.lt_add_one_iff, Rat.floor_lt_iff]
      push_cast
      linarith
    · rw [Rat.le_floor_iff]
      linarith
  unfold roundHalfUp
  split
  · exact hfloor n
  · have := hfloor (-n)
    push_cast at this
    rw [this, neg_neg]

theorem HasPlaces.quantize_eq (h : HasPlaces places value) : quantize places value = value := by
  obtain ⟨n, hn⟩ := hasPlaces_iff.mp h
  rw [quantize, hn, roundHalfUp_intCast, ← hn]
  exact mul_div_cancel_right₀ value (scale_pos places).ne'

theorem hasPlaces_quantize (places : Nat) (value : Rat) :
    HasPlaces places (quantize places value) := by
  refine hasPlaces_iff.mpr ⟨roundHalfUp (value * (10 ^ places : Nat)), ?_⟩
  exact div_mul_cancel₀ _ (scale_pos places).ne'

theorem roundHalfEven_intCast (n : Int) : roundHalfEven (n : Rat) = n := by
  have hfloor : (n : Rat).floor = n := Rat.floor_intCast n
  simp only [roundHalfEven, hfloor, sub_self]
  rw [if_pos (by norm_num)]

theorem quantizeHalfEven_eq_iff :
    quantizeHalfEven places value = value ↔ HasPlaces places value := by
  constructor
  · intro h
    refine hasPlaces_iff.mpr ⟨roundHalfEven (value * (10 ^ places : Nat)), ?_⟩
    conv_lhs => rw [← h]
    exact div_mul_cancel₀ _ (scale_pos places).ne'
  · intro h
    obtain ⟨n, hn⟩ := hasPlaces_iff.mp h
    rw [quantizeHalfEven, hn, roundHalfEven_intCast, ← hn]
    exact mul_div_cancel_right₀ value (scale_pos places).ne'

theorem floor_half_nonneg (h : 0 ≤ value) : 0 ≤ (value + 1 / 2).floor := by
  rw [Rat.le_floor_iff]
  push_cast
  linarith

theorem roundHalfUp_mono (h : value ≤ other) : roundHalfUp value ≤ roundHalfUp other := by
  unfold roundHalfUp
  by_cases hval : 0 ≤ value
  · rw [if_pos hval, if_pos (hval.trans h)]
    exact Rat.floor_monotone (by linarith)
  · rw [if_neg hval]
    have hleft : 0 ≤ (-value + 1 / 2).floor := floor_half_nonneg (by linarith)
    by_cases ho : 0 ≤ other
    · rw [if_pos ho]
      have hright := floor_half_nonneg ho
      omega
    · rw [if_neg ho]
      have hfloor : (-other + 1 / 2).floor ≤ (-value + 1 / 2).floor :=
        Rat.floor_monotone (by linarith)
      omega

theorem roundHalfUp_pos_iff : 0 < roundHalfUp value ↔ 1 / 2 ≤ value := by
  unfold roundHalfUp
  by_cases hval : 0 ≤ value
  · rw [if_pos hval, ← Int.add_one_le_iff, Rat.le_floor_iff]
    push_cast
    constructor
    · intro h
      linarith
    · intro h
      linarith
  · rw [if_neg hval]
    have hfloor : 0 ≤ (-value + 1 / 2).floor := floor_half_nonneg (by linarith)
    constructor
    · intro h
      omega
    · intro h
      linarith

/-- A nonnegative number is rounded to at most `n` below half a unit above it. -/
theorem roundHalfUp_le_iff {n : Int} (h : 0 ≤ value) :
    roundHalfUp value ≤ n ↔ value < n + 1 / 2 := by
  rw [roundHalfUp, if_pos h, ← Int.lt_add_one_iff, Rat.floor_lt_iff]
  push_cast
  constructor
  · intro hlt
    linarith
  · intro hlt
    linarith

theorem quantize_mono (h : value ≤ other) : quantize places value ≤ quantize places other := by
  have hscal : value * (10 ^ places : Nat) ≤ other * (10 ^ places : Nat) :=
    mul_le_mul_of_nonneg_right h (scale_pos places).le
  have hround := roundHalfUp_mono hscal
  rw [quantize, quantize]
  exact div_le_div_of_nonneg_right (by exact_mod_cast hround) (scale_pos places).le

theorem HasPlaces.quantize_le (h : HasPlaces places other) (hle : value ≤ other) :
    quantize places value ≤ other := by
  calc quantize places value ≤ quantize places other := quantize_mono hle
    _ = other := h.quantize_eq

theorem HasPlaces.le_quantize (h : HasPlaces places value) (hle : value ≤ other) :
    value ≤ quantize places other := by
  calc value = quantize places value := h.quantize_eq.symm
    _ ≤ quantize places other := quantize_mono hle

theorem quantize_nonneg (h : 0 ≤ value) : 0 ≤ quantize places value :=
  (hasPlaces_zero places).le_quantize h

theorem quantize_pos_iff :
    0 < quantize places value ↔ 1 / 2 ≤ value * (10 ^ places : Nat) := by
  rw [quantize, div_pos_iff_of_pos_right (scale_pos places), Int.cast_pos, roundHalfUp_pos_iff]

end TamForge.ProofSupport.Decimals
