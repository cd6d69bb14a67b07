import Mathlib.Data.List.Induction
import TamForge.Cards.Scheduling
import TamForge.ProofSupport.Checks

/-!
# Reviews stay storable

A state that reviews lead to keeps hundredths of easiness and an interval of at
least as many days as it counts repetitions.  From such a state a review fails,
or leaves the columns, exactly where its easiness or its due date does.
-/

namespace TamForge.Cards

open Models ProofSupport ProofSupport.Decimals

variable {state before : CardState} {grade : Int} {reviewedOn dueOn : Date}
  {outcome : ReviewOutcome} {review : Review} {reviews : List Review}

/-! ## One review -/

structure Sound (state : CardState) : Prop where
  places : HasPlaces 2 state.easiness
  floor : minimumEasiness ≤ state.easiness
  counted : (state.repetitions : Int) ≤ state.intervalDays
  fresh : state.repetitions = 0 → state.intervalDays ≤ 1
  first : state.repetitions = 1 → state.intervalDays = 1

theorem sound_newCardState (dueOn : Date) : Sound (newCardState dueOn) where
  places := (by decide +kernel : HasPlaces 2 initialEasiness)
  floor := by norm_num [newCardState, initialEasiness, minimumEasiness]
  counted := le_refl _
  fresh _ := zero_le_one
  first h := by cases h

theorem Sound.nonneg (h : Sound state) : 0 ≤ state.intervalDays :=
  (Int.natCast_nonneg _).trans h.counted

theorem hasPlaces_easinessDelta (grade : Int) : HasPlaces 2 (easinessDelta grade) := by
  refine hasPlaces_iff.mpr ⟨-80 + 28 * grade - 2 * grade * grade, ?_⟩
  unfold easinessDelta
  push_cast
  ring

theorem hasPlaces_minimumEasiness : HasPlaces 2 minimumEasiness := by decide +kernel

def nextEasiness (state : CardState) (grade : Int) : Rat :=
  max minimumEasiness (state.easiness + easinessDelta grade)

def nextRepetitions (state : CardState) (grade : Int) : Nat :=
  if passingGrade ≤ grade then state.repetitions + 1 else 0

def nextInterval (state : CardState) (grade : Int) : Int :=
  if passingGrade ≤ grade then
    if state.repetitions = 0 then 1
    else if state.repetitions = 1 then 6
    else max (roundHalfUp (state.intervalDays * nextEasiness state grade)) (state.intervalDays + 1)
  else 1

/-- Rounding does nothing to an easiness of hundredths. -/
theorem Sound.schedule_eq (h : Sound state) (hgrade : 0 ≤ grade ∧ grade ≤ 5)
    (reviewedOn : Date) :
    schedule state grade reviewedOn = (addDays reviewedOn (nextInterval state grade)).map
      fun dueOn => ⟨state, ⟨nextEasiness state grade, nextInterval state grade,
        nextRepetitions state grade, dueOn⟩, grade, decide (passingGrade ≤ grade)⟩ := by
  have hpl := h.places.add (hasPlaces_easinessDelta grade)
  have hquantize := quantizeHalfEven_eq_iff.mpr hpl
  unfold schedule
  rw [if_neg (not_not.mpr hgrade), hquantize]
  change (addDays reviewedOn _).bind _ = _
  have hivl : (if !decide (passingGrade ≤ grade) then 1
      else if (if decide (passingGrade ≤ grade) then state.repetitions + 1 else 0) = 1 then 1
      else if (if decide (passingGrade ≤ grade) then state.repetitions + 1 else 0) = 2 then 6
      else max (roundHalfUp (state.intervalDays * nextEasiness state grade))
        (state.intervalDays + 1)) = nextInterval state grade := by
    unfold nextInterval
    by_cases hpass : passingGrade ≤ grade <;> simp [hpass]
  unfold nextEasiness at hivl ⊢
  rw [hivl]
  have hrepetitions : (if decide (passingGrade ≤ grade) then state.repetitions + 1 else 0) =
      nextRepetitions state grade := by
    simp [nextRepetitions]
  rw [hrepetitions]
  cases addDays reviewedOn (nextInterval state grade) <;> rfl

theorem nextInterval_pos (h : Sound state) (grade : Int) : 1 ≤ nextInterval state grade := by
  have hnonneg := h.nonneg
  unfold nextInterval
  split
  · split
    · exact le_refl _
    · split
      · norm_num
      · exact le_max_of_le_right (by omega)
  · exact le_refl _

theorem addDays_eq_ok {days : Int} (h : 1 ≤ days) :
    addDays reviewedOn days = .ok dueOn ↔
      (reviewedOn : Int) + days ≤ dateMax ∧ (dueOn : Int) = reviewedOn + days := by
  unfold addDays
  by_cases hfits : (reviewedOn : Int) + days ≤ dateMax
  · rw [if_pos ⟨by omega, hfits⟩]
    constructor
    · intro hok
      cases hok
      exact ⟨hfits, by omega⟩
    · rintro ⟨-, hdue⟩
      rw [← hdue, Int.toNat_natCast]
  · rw [if_neg fun hboth => hfits hboth.2]
    constructor
    · intro hok
      cases hok
    · rintro ⟨hle, -⟩
      exact absurd hle hfits

theorem Sound.schedule_ok_iff (h : Sound state) (hgrade : 0 ≤ grade ∧ grade ≤ 5) :
    schedule state grade reviewedOn = .ok outcome ↔
      (reviewedOn : Int) + nextInterval state grade ≤ dateMax ∧
        ∃ dueOn : Date, (dueOn : Int) = reviewedOn + nextInterval state grade ∧
          outcome = ⟨state, ⟨nextEasiness state grade, nextInterval state grade,
            nextRepetitions state grade, dueOn⟩, grade, decide (passingGrade ≤ grade)⟩ := by
  rw [h.schedule_eq hgrade]
  cases hdue : addDays reviewedOn (nextInterval state grade) with
  | error e =>
    constructor
    · intro hok
      cases hok
    · rintro ⟨hle, dueOn, heq, -⟩
      rw [(addDays_eq_ok (nextInterval_pos h grade)).mpr ⟨hle, heq⟩] at hdue
      cases hdue
  | ok dueOn =>
    obtain ⟨hle, heq⟩ := (addDays_eq_ok (nextInterval_pos h grade)).mp hdue
    constructor
    · intro hok
      cases hok
      exact ⟨hle, dueOn, heq, rfl⟩
    · rintro ⟨-, other, ho, rfl⟩
      obtain rfl : dueOn = other := Int.natCast_inj.mp (heq.trans ho.symm)
      rfl

theorem Sound.interval_lt (h : Sound state) (hpass : passingGrade ≤ grade)
    (hstreak : 1 ≤ state.repetitions) : state.intervalDays < nextInterval state grade := by
  rw [nextInterval, if_pos hpass, if_neg (by omega)]
  by_cases hone : state.repetitions = 1
  · rw [if_pos hone, h.first hone]
    norm_num
  · rw [if_neg hone]
    exact lt_max_of_lt_right (by omega)

theorem Sound.interval_le (h : Sound state) (hpass : passingGrade ≤ grade) :
    state.intervalDays ≤ nextInterval state grade := by
  by_cases hnew : state.repetitions = 0
  · calc state.intervalDays ≤ 1 := h.fresh hnew
      _ ≤ nextInterval state grade := nextInterval_pos h grade
  · exact (h.interval_lt hpass (by omega)).le

theorem Sound.next (h : Sound state) (grade : Int) (dueOn : Date) :
    Sound ⟨nextEasiness state grade, nextInterval state grade, nextRepetitions state grade,
      dueOn⟩ := by
  constructor
  · unfold nextEasiness
    rcases max_choice minimumEasiness (state.easiness + easinessDelta grade) with hmax | hmax
    · simpa [hmax] using hasPlaces_minimumEasiness
    · simpa [hmax] using h.places.add (hasPlaces_easinessDelta grade)
  · exact le_max_left ..
  · by_cases hpass : passingGrade ≤ grade
    · have hcnt := h.counted
      rw [nextRepetitions, if_pos hpass]
      by_cases hnew : state.repetitions = 0
      · have hpos := nextInterval_pos h grade
        simp only [hnew]
        omega
      · have hlt := h.interval_lt hpass (by omega)
        push_cast
        omega
    · have hpos := nextInterval_pos h grade
      simp only [nextRepetitions, if_neg hpass]
      omega
  · intro hzero
    by_cases hpass : passingGrade ≤ grade
    · simp [nextRepetitions, hpass] at hzero
    · simp [nextInterval, hpass]
  · intro hone
    by_cases hpass : passingGrade ≤ grade
    · have hnew : state.repetitions = 0 := by simpa [nextRepetitions, hpass] using hone
      simp [nextInterval, hpass, hnew]
    · simp [nextRepetitions, hpass] at hone

/-- The days of 2024 to 2100. -/
def InPeriod (date : Date) : Prop := ymd2ord 2024 1 1 ≤ date ∧ date ≤ ymd2ord 2100 12 31

/-- A state has room for a review: its easiness stays within `99.99`, and a
success from the third in a row on is due before the last date there is. -/
structure HasRoom (state : CardState) (review : Review) : Prop where
  easiness : state.easiness + easinessDelta review.grade ≤ maxEasiness
  days : passingGrade ≤ review.grade → 2 ≤ state.repetitions →
    (state.intervalDays : Rat) *
        max minimumEasiness (state.easiness + easinessDelta review.grade) <
      ((dateMax - review.reviewedOn : Int) : Rat) + 1 / 2 ∧
      state.intervalDays + 1 ≤ (dateMax : Int) - review.reviewedOn

theorem Sound.fits_iff (h : Sound state) (hper : InPeriod review.reviewedOn) :
    (review.reviewedOn : Int) + nextInterval state review.grade ≤ dateMax ↔
      (passingGrade ≤ review.grade → 2 ≤ state.repetitions →
        (state.intervalDays : Rat) *
            max minimumEasiness (state.easiness + easinessDelta review.grade) <
          ((dateMax - review.reviewedOn : Int) : Rat) + 1 / 2 ∧
          state.intervalDays + 1 ≤ (dateMax : Int) - review.reviewedOn) := by
  have hlast : ymd2ord 2100 12 31 + 6 ≤ dateMax := by decide
  have hdate : (review.reviewedOn : Int) + 6 ≤ dateMax := by
    have hle := hper.2
    unfold Date at *
    omega
  have hnonneg : (0 : Rat) ≤ (state.intervalDays : Rat) * nextEasiness state review.grade := by
    have hivl : (0 : Rat) ≤ state.intervalDays := by exact_mod_cast h.nonneg
    have heasiness : (0 : Rat) ≤ nextEasiness state review.grade :=
      le_max_of_le_left (by norm_num [minimumEasiness])
    positivity
  unfold nextInterval
  by_cases hpass : passingGrade ≤ review.grade
  · rw [if_pos hpass]
    by_cases htwo : 2 ≤ state.repetitions
    · rw [if_neg (by omega), if_neg (by omega)]
      have hround := @roundHalfUp_le_iff _ ((dateMax : Int) - review.reviewedOn) hnonneg
      constructor
      · intro hle _ _
        refine ⟨hround.mp ?_, ?_⟩
        · have hmax := le_max_left (roundHalfUp (state.intervalDays *
            nextEasiness state review.grade)) (state.intervalDays + 1)
          omega
        · have hmax := le_max_right (roundHalfUp (state.intervalDays *
            nextEasiness state review.grade)) (state.intervalDays + 1)
          omega
      · intro hroom
        obtain ⟨hlt, hnext⟩ := hroom hpass htwo
        have hle := hround.mpr hlt
        have hmax := max_le hle hnext
        omega
    · constructor
      · intro _ _ habsurd
        exact absurd habsurd htwo
      · intro _
        split <;> try split
        all_goals omega
  · rw [if_neg hpass]
    constructor
    · intro _ habsurd
      exact absurd habsurd hpass
    · intro _
      omega

/-- A review succeeds, and the table takes what it leads to, exactly where the
state has room for it. -/
theorem Sound.storable_iff (h : Sound state) (hper : InPeriod review.reviewedOn) :
    (∃ outcome, schedule state review.grade review.reviewedOn = .ok outcome ∧
      Storable review.reviewedOn outcome.after) ↔ HasRoom state review := by
  have hgrade := And.intro review.grade_nonneg review.grade_le
  have hpos := nextInterval_pos h review.grade
  constructor
  · rintro ⟨outcome, hok, hstorb⟩
    obtain ⟨hfits, dueOn, -, rfl⟩ := (h.schedule_ok_iff hgrade).mp hok
    exact ⟨(le_max_right ..).trans hstorb.easiness_le, (h.fits_iff hper).mp hfits⟩
  · intro hroom
    have hfits := (h.fits_iff hper).mpr hroom.days
    have hdue : ∃ dueOn : Date,
        (dueOn : Int) = review.reviewedOn + nextInterval state review.grade :=
      ⟨((review.reviewedOn : Int) + nextInterval state review.grade).toNat,
        Int.toNat_of_nonneg (by omega)⟩
    obtain ⟨dueOn, hdue⟩ := hdue
    refine ⟨_, (h.schedule_ok_iff hgrade).mpr ⟨hfits, dueOn, hdue, rfl⟩, ?_⟩
    have hnext := h.next review.grade dueOn
    have hcnt := hnext.counted
    have hlast : (dateMax : Int) < integerEnd := by decide
    constructor
    · exact hnext.places
    · exact hnext.floor
    · exact max_le (by norm_num [minimumEasiness, maxEasiness]) hroom.easiness
    · exact hnext.nonneg
    · simp only
      omega
    · simp only at hcnt ⊢
      omega
    · have hle : (dueOn : Int) ≤ dateMax := hdue.trans_le hfits
      exact_mod_cast hle
    · have hlat : (review.reviewedOn : Int) < dueOn := by omega
      exact_mod_cast hlat

/-! ## Runs -/

theorem streak_append (reviews : List Review) (review : Review) :
    streak (reviews ++ [review]) =
      if passingGrade ≤ review.grade then streak reviews + 1 else 0 := by
  unfold streak
  rw [List.reverse_append, List.reverse_singleton, List.singleton_append, List.takeWhile_cons]
  by_cases hpass : passingGrade ≤ review.grade <;> simp [hpass]

theorem replay_append (dueOn : Date) (reviews : List Review) (review : Review) :
    replay dueOn (reviews ++ [review]) =
      replay dueOn reviews >>= fun before => reviewed before review := by
  unfold replay
  rw [List.foldlM_append]
  simp only [List.foldlM_cons, List.foldlM_nil, bind_pure]

theorem reviewed_ok_iff :
    reviewed before review = .ok state ↔
      ∃ outcome, schedule before review.grade review.reviewedOn = .ok outcome ∧
        outcome.after = state := by
  unfold reviewed
  rw [bind_ok_iff]
  apply exists_congr
  intro outcome
  apply and_congr_right
  intro _
  exact ⟨fun h => by cases h; rfl, fun h => by rw [h]; rfl⟩

theorem Sound.reviewed (h : Sound before) (hok : reviewed before review = .ok state) :
    Sound state ∧ state.repetitions = nextRepetitions before review.grade := by
  obtain ⟨outcome, hsched, rfl⟩ := reviewed_ok_iff.mp hok
  obtain ⟨-, due, -, rfl⟩ :=
    (h.schedule_ok_iff ⟨review.grade_nonneg, review.grade_le⟩).mp hsched
  exact ⟨h.next review.grade due, rfl⟩

/-- Every state that reviews lead to is sound, and counts the successes since the
last failure. -/
theorem replay_sound (h : replay dueOn reviews = .ok state) :
    Sound state ∧ state.repetitions = streak reviews := by
  induction reviews using List.reverseRecOn generalizing state with
  | nil =>
    cases h
    exact ⟨sound_newCardState dueOn, rfl⟩
  | append_singleton earlier review ih =>
    rw [replay_append, bind_ok_iff] at h
    obtain ⟨before, hb, hok⟩ := h
    obtain ⟨hsound, hcnt⟩ := ih hb
    obtain ⟨hnext, hrepetitions⟩ := hsound.reviewed hok
    refine ⟨hnext, ?_⟩
    rw [hrepetitions, streak_append, nextRepetitions, hcnt]

structure Advances (earlier : List Review) (review : Review) (before after : CardState) :
    Prop where
  storable : Storable review.reviewedOn after
  repetitions : after.repetitions = streak (earlier ++ [review])
  never_shrinks : passingGrade ≤ review.grade → before.intervalDays ≤ after.intervalDays
  grows : passingGrade ≤ review.grade → 1 ≤ streak earlier →
    before.intervalDays < after.intervalDays

def StaysStorable (dueOn : Date) (reviews : List Review) : Prop :=
  ∀ earlier review later, reviews = earlier ++ review :: later →
    ∃ before outcome, replay dueOn earlier = .ok before ∧
      schedule before review.grade review.reviewedOn = .ok outcome ∧
      Advances earlier review before outcome.after

def AlwaysRoom (dueOn : Date) (reviews : List Review) : Prop :=
  ∀ earlier review later, reviews = earlier ++ review :: later →
    ∀ before, replay dueOn earlier = .ok before → HasRoom before review

theorem Sound.advances (h : Sound before) (hcnt : before.repetitions = streak reviews)
    (hok : schedule before review.grade review.reviewedOn = .ok outcome)
    (hstorb : Storable review.reviewedOn outcome.after) :
    Advances reviews review before outcome.after := by
  obtain ⟨-, due, -, rfl⟩ :=
    (h.schedule_ok_iff ⟨review.grade_nonneg, review.grade_le⟩).mp hok
  constructor
  · exact hstorb
  · rw [streak_append, ← hcnt]
    rfl
  · exact h.interval_le
  · intro hpass hstreak
    exact h.interval_lt hpass (hcnt ▸ hstreak)

theorem replay_of_room (hper : ∀ review ∈ reviews, InPeriod review.reviewedOn)
    (hroom : AlwaysRoom dueOn reviews) (earl later : List Review)
    (hspl : reviews = earl ++ later) : ∃ state, replay dueOn earl = .ok state := by
  induction earl using List.reverseRecOn generalizing later with
  | nil => exact ⟨newCardState dueOn, rfl⟩
  | append_singleton earl review ih =>
    rw [List.append_assoc, List.singleton_append] at hspl
    obtain ⟨before, hb⟩ := ih (review :: later) hspl
    have hmem : review ∈ reviews := by simp [hspl]
    obtain ⟨outcome, hok, -⟩ := ((replay_sound hb).1.storable_iff (hper review hmem)).mpr
      (hroom earl review later hspl before hb)
    refine ⟨outcome.after, ?_⟩
    rw [replay_append, bind_ok_iff]
    exact ⟨before, hb, reviewed_ok_iff.mpr ⟨outcome, hok, rfl⟩⟩

/-- A run of reviews from 2024 to 2100 stays storable exactly when every state of
it has room for the next review. -/
theorem reviews_storable_iff (dueOn : Date) (reviews : List Review)
    (hperiod : ∀ review ∈ reviews, InPeriod review.reviewedOn) :
    StaysStorable dueOn reviews ↔ AlwaysRoom dueOn reviews := by
  constructor
  · intro hstays earlier review later hsplit before hbefore
    obtain ⟨first, outcome, hfirst, hok, hadvances⟩ := hstays earlier review later hsplit
    cases hfirst.symm.trans hbefore
    have hmem : review ∈ reviews := by simp [hsplit]
    exact ((replay_sound hbefore).1.storable_iff (hperiod review hmem)).mp
      ⟨outcome, hok, hadvances.storable⟩
  · intro hroom earlier review later hsplit
    obtain ⟨before, hbefore⟩ := replay_of_room hperiod hroom earlier (review :: later) hsplit
    obtain ⟨hsound, hcount⟩ := replay_sound hbefore
    have hmem : review ∈ reviews := by simp [hsplit]
    obtain ⟨outcome, hok, hstorable⟩ := (hsound.storable_iff (hperiod review hmem)).mpr
      (hroom earlier review later hsplit before hbefore)
    exact ⟨before, outcome, hbefore, hok, hsound.advances hcount hok hstorable⟩

def perfectReview : Review := ⟨5, ymd2ord 2024 1 1, by decide, by decide⟩

/-- The first perfect review has room. -/
theorem perfect_review_storable : StaysStorable 738886 [perfectReview] := by
  refine (reviews_storable_iff 738886 [perfectReview] ?_).mpr ?_
  · intro review hreview
    rw [List.mem_singleton.mp hreview]
    exact ⟨by decide, by decide⟩
  · intro earlier review later hsplit before hbefore
    obtain ⟨rfl, hrest⟩ | ⟨_, -, hrest⟩ := List.cons_eq_append_iff.mp hsplit
    · cases hrest
      cases hbefore
      refine ⟨by decide +kernel, ?_⟩
      intro _ hstreak
      exact absurd hstreak (by decide)
    · simp at hrest

/-- The fourteenth perfect review in a row is due behind the last date. -/
theorem perfect_reviews_overflow :
    ¬ ∀ (dueOn : Date) (reviews : List Review),
      (∀ review ∈ reviews, InPeriod review.reviewedOn) → StaysStorable dueOn reviews := by
  intro hall
  have hperiod : ∀ review ∈ List.replicate 14 perfectReview, InPeriod review.reviewedOn := by
    intro review hreview
    rw [List.eq_of_mem_replicate hreview]
    exact ⟨by decide, by decide⟩
  obtain ⟨before, outcome, hbefore, hok, -⟩ := hall 738886 _ hperiod
    (List.replicate 13 perfectReview) perfectReview [] (by decide)
  have hreplay : replay 738886 (List.replicate 13 perfectReview ++ [perfectReview]) =
      .ok outcome.after := by
    rw [replay_append, bind_ok_iff]
    exact ⟨before, hbefore, reviewed_ok_iff.mpr ⟨outcome, hok, rfl⟩⟩
  have hoverflow : replay 738886 (List.replicate 13 perfectReview ++ [perfectReview]) =
      .error .overflowError := by decide +kernel
  rw [hoverflow] at hreplay
  cases hreplay

/-! ## Better recall -/

/-- `second` says that two successes in a row earn six days. -/
structure Behind (state other : CardState) : Prop where
  easiness : state.easiness ≤ other.easiness
  intervalDays : state.intervalDays ≤ other.intervalDays
  repetitions : state.repetitions ≤ other.repetitions
  dueOn : state.dueOn ≤ other.dueOn
  second : 2 ≤ other.repetitions → 6 ≤ other.intervalDays

variable {other next nextOther : CardState} {better : Review}

theorem easinessDelta_mono (h : review.grade ≤ better.grade) :
    easinessDelta review.grade ≤ easinessDelta better.grade := by
  have hnonneg : (0 : Rat) ≤ review.grade := by exact_mod_cast review.grade_nonneg
  have hle : (review.grade : Rat) ≤ better.grade := by exact_mod_cast h
  have hfive : (better.grade : Rat) ≤ 5 := by exact_mod_cast better.grade_le
  unfold easinessDelta
  nlinarith

theorem Behind.reviewed (h : Behind state other) (hs : Sound state) (ho : Sound other)
    (hgrade : review.grade ≤ better.grade) (hdate : review.reviewedOn ≤ better.reviewedOn)
    (hstate : reviewed state review = .ok next)
    (hother : reviewed other better = .ok nextOther) : Behind next nextOther := by
  obtain ⟨_, hok, rfl⟩ := reviewed_ok_iff.mp hstate
  obtain ⟨_, hlast, rfl⟩ := reviewed_ok_iff.mp hother
  obtain ⟨-, due, hdue, rfl⟩ := (hs.schedule_ok_iff ⟨review.grade_nonneg, review.grade_le⟩).mp hok
  obtain ⟨-, dueOther, hlater, rfl⟩ :=
    (ho.schedule_ok_iff ⟨better.grade_nonneg, better.grade_le⟩).mp hlast
  have heasiness : nextEasiness state review.grade ≤ nextEasiness other better.grade :=
    max_le_max_left _ (add_le_add h.easiness (easinessDelta_mono hgrade))
  have hrounded : roundHalfUp (state.intervalDays * nextEasiness state review.grade) ≤
      roundHalfUp (other.intervalDays * nextEasiness other better.grade) := by
    have hfloor : (0 : Rat) ≤ nextEasiness state review.grade :=
      le_max_of_le_left (by norm_num [minimumEasiness])
    have hnonneg : (0 : Rat) ≤ other.intervalDays := by exact_mod_cast ho.nonneg
    exact roundHalfUp_mono (mul_le_mul (by exact_mod_cast h.intervalDays) heasiness hfloor hnonneg)
  obtain ⟨-, hdays, hcount, -, hsecond⟩ := h
  have hinterval : nextInterval state review.grade ≤ nextInterval other better.grade := by
    by_cases hpass : passingGrade ≤ review.grade
    · unfold nextInterval
      grind
    · rw [nextInterval, if_neg hpass]
      exact nextInterval_pos ho better.grade
  refine ⟨heasiness, hinterval, ?_, ?_, ?_⟩
  · simp only [nextRepetitions]
    grind
  · simp only
    unfold Date at *
    omega
  · simp only [nextRepetitions, nextInterval]
    grind

/-- Better grades never bring a card back sooner. -/
theorem replay_mono {betters : List Review} (dueOn : Date)
    (hbetter : List.Forall₂ (fun review better => review.grade ≤ better.grade ∧
      review.reviewedOn ≤ better.reviewedOn) reviews betters)
    (hstate : replay dueOn reviews = .ok state) (hother : replay dueOn betters = .ok other) :
    Behind state other := by
  suffices hall : ∀ first second, Sound first → Sound second → Behind first second →
      reviews.foldlM Cards.reviewed first = .ok state →
      betters.foldlM Cards.reviewed second = .ok other → Behind state other by
    have hnew := sound_newCardState dueOn
    refine hall _ _ hnew hnew ⟨le_rfl, le_rfl, le_rfl, le_rfl, ?_⟩ hstate hother
    rintro ⟨⟩
  clear hstate hother
  induction hbetter with
  | nil =>
    rintro first second - - hbehind ⟨⟩ ⟨⟩
    exact hbehind
  | cons hrecall _ ih =>
    intro first second hs ho hbehind hstate hother
    rw [List.foldlM_cons, bind_ok_iff] at hstate hother
    obtain ⟨nextState, hfirst, hstate⟩ := hstate
    obtain ⟨nextOther, hsecond, hother⟩ := hother
    exact ih _ _ (hs.reviewed hfirst).1 (ho.reviewed hsecond).1
      (hbehind.reviewed hs ho hrecall.1 hrecall.2 hfirst hsecond) hstate hother

/-- A perfect review instead of a lapse. -/
theorem lapse_behind : Behind ⟨109 / 50, 1, 0, 738887⟩ ⟨13 / 5, 1, 1, 738887⟩ := by
  have hlapse : replay 738886 [⟨2, 738886, by decide, by decide⟩] =
      .ok ⟨109 / 50, 1, 0, 738887⟩ := by decide +kernel
  have hperfect : replay 738886 [perfectReview] = .ok ⟨13 / 5, 1, 1, 738887⟩ := by
    decide +kernel
  exact replay_mono 738886 (.cons ⟨by decide, by decide⟩ .nil) hlapse hperfect

end TamForge.Cards
