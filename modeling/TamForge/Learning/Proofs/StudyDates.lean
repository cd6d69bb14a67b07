import Mathlib.Data.Finset.Card
import TamForge.Learning.Scheduling

/-!
# Counting study dates

What the loops of the scheduler compute: the number of a study day is the count
of study dates since the first one, and the first open date is a study date
after everything that was planned.
-/

namespace TamForge.Learning

open Models ProofSupport

def isStudyDate (restWeekdays : List Nat) (date : Date) : Bool :=
  !restWeekdays.contains (weekday date)

/-- How many study dates there are from `start` up to `date`. -/
def studyDates (restWeekdays : List Nat) (start date : Date) : Nat :=
  (List.range' start (date + 1 - start)).countP (isStudyDate restWeekdays)

variable {rest : List Nat}

theorem countStudyDates_eq (num : Nat) (current : Date) (remaining : Nat) :
    countStudyDates rest num current remaining =
      num + (List.range' current remaining).countP (isStudyDate rest) := by
  induction remaining generalizing num current with
  | zero => rfl
  | succ remaining ih =>
    rw [countStudyDates, ih, List.range'_succ, List.countP_cons]
    by_cases hrest : rest.contains (weekday current) = true
    · simp only [hrest, isStudyDate, if_true, Bool.not_true]
      simp
    · simp only [hrest, isStudyDate]
      simp
      omega

theorem raiseFirst_before {start date : Date} (hle : start ≤ date) (error : PlanError) :
    raiseFirst [(decide (date < start), error)] = .ok () := by
  rw [raiseFirst_eq_ok]
  simpa using hle

theorem studyDayNumber_eq {start date : Date} (hle : start ≤ date) :
    studyDayNumber rest start date =
      .ok (if isStudyDate rest date then some (studyDates rest start date) else none) := by
  unfold studyDayNumber
  rw [raiseFirst_before hle]
  show (if rest.contains (weekday date) = true then Except.ok none
    else Except.ok (some (countStudyDates rest 0 start (date + 1 - start)))) = _
  rw [countStudyDates_eq, Nat.zero_add]
  by_cases hrest : rest.contains (weekday date) = true
  · rw [if_pos hrest, if_neg]
    simpa [isStudyDate] using hrest
  · rw [if_neg hrest, if_pos]
    · rfl
    · simpa [isStudyDate] using hrest

theorem studyDayNumber_ok {start date : Date} {num : Nat}
    (h : studyDayNumber rest start date = .ok (some num)) :
    start ≤ date ∧ isStudyDate rest date = true ∧ num = studyDates rest start date := by
  have hle : start ≤ date := by
    simp only [studyDayNumber, bind_ok_iff] at h
    obtain ⟨_, hgrd, -⟩ := h
    simpa using raiseFirst_eq_ok.mp hgrd
  rw [studyDayNumber_eq hle, Except.ok.injEq] at h
  split at h
  · rename_i hstudy
    cases h
    exact ⟨hle, hstudy, rfl⟩
  · cases h

theorem studyDates_lt {start date later : Nat} (hstart : start ≤ date) (hlt : date < later)
    (hstudy : isStudyDate rest later = true) :
    studyDates rest start date < studyDates rest start later := by
  have hspl : later + 1 - start = (date + 1 - start) + (later - date) := by omega
  have hlast : later - date = (later - date - 1) + 1 := by omega
  have hend : start + (date + 1 - start) + (later - date - 1) = later := by omega
  unfold studyDates
  rw [hspl, ← List.range'_append_1, List.countP_append, hlast, List.range'_1_concat,
    List.countP_append, hend, List.countP_singleton, if_pos hstudy]
  omega

theorem skipRestDates_ge (candidate : Date) (remaining : Nat) :
    candidate ≤ skipRestDates rest candidate remaining := by
  induction remaining generalizing candidate with
  | zero => exact Nat.le_refl _
  | succ remaining ih =>
    unfold skipRestDates
    split
    · exact (Nat.le_succ candidate).trans (ih (candidate + 1))
    · exact Nat.le_refl _

theorem skipRestDates_study (candidate : Date) (remaining : Nat) :
    isStudyDate rest (skipRestDates rest candidate remaining) = true ∨
      ∀ offset < remaining, rest.contains (weekday (candidate + offset)) = true := by
  induction remaining generalizing candidate with
  | zero => exact Or.inr fun offset hoff => absurd hoff (Nat.not_lt_zero offset)
  | succ remaining ih =>
    unfold skipRestDates
    split
    · rename_i hrest
      rcases ih (candidate + 1) with hstudy | hall
      · exact Or.inl hstudy
      · right
        intro offset hoff
        cases offset with
        | zero => exact hrest
        | succ offset =>
          have hnext := hall offset (by omega)
          rwa [Nat.add_assoc, Nat.add_comm 1 offset] at hnext
    · rename_i hstudy
      exact Or.inl (by simpa [isStudyDate] using hstudy)

theorem skipRestDates_rest {candidate date : Nat} {remaining : Nat} (hge : candidate ≤ date)
    (hlt : date < skipRestDates rest candidate remaining) : isStudyDate rest date = false := by
  induction remaining generalizing candidate with
  | zero =>
    rw [skipRestDates] at hlt
    omega
  | succ remaining ih =>
    unfold skipRestDates at hlt
    split at hlt
    · rename_i hrest
      by_cases hfst : date = candidate
      · subst hfst
        simpa [isStudyDate] using hrest
      · exact ih (by omega) hlt
    · omega

theorem seven_le_of_week {candidate : Date}
    (h : ∀ offset < 7, rest.contains (weekday (candidate + offset)) = true) :
    7 ≤ rest.dedup.length := by
  have hsub : Finset.range 7 ⊆ rest.toFinset := by
    intro day hday
    have hlt : day < 7 := Finset.mem_range.mp hday
    have hoff : (day + 7 - (candidate + 6) % 7) % 7 < 7 := Nat.mod_lt _ (by decide)
    have hrest := h _ hoff
    have hweekday : weekday (candidate + (day + 7 - (candidate + 6) % 7) % 7) = day := by
      unfold weekday
      omega
    rw [hweekday] at hrest
    simpa using hrest
  have hcard := Finset.card_le_card hsub
  rwa [Finset.card_range, List.card_toFinset] at hcard

theorem skipRestDates_isStudyDate (hweek : rest.dedup.length < 7) (candidate : Date) :
    isStudyDate rest (skipRestDates rest candidate 7) = true := by
  rcases @skipRestDates_study rest candidate 7 with hstudy | hall
  · exact hstudy
  · have hseven := seven_le_of_week hall
    omega

theorem firstOpenStudyDate_ok {localToday date : Nat} {lastPlanned : Option Nat}
    (h : firstOpenStudyDate localToday lastPlanned rest = .ok date) :
    localToday ≤ date ∧ (∀ last, lastPlanned = some last → last < date) ∧
      isStudyDate rest date = true := by
  simp only [firstOpenStudyDate, bind_ok_iff] at h
  obtain ⟨_, hgrd, h⟩ := h
  have hweek := raiseFirst_eq_ok.mp hgrd
  simp only [List.forall_mem_cons, decide_eq_false_iff_not, Nat.not_le] at hweek
  cases h
  have hstudy := fun candidate => skipRestDates_isStudyDate hweek.1 candidate
  cases lastPlanned with
  | none =>
    refine ⟨skipRestDates_ge localToday 7, ?_, hstudy localToday⟩
    intro last hlast
    cases hlast
  | some last =>
    have hge : (if localToday ≤ last then last + 1 else localToday) ≤ skipRestDates rest
        (if localToday ≤ last then last + 1 else localToday) 7 := skipRestDates_ge _ 7
    refine ⟨?_, ?_, hstudy _⟩
    · refine Nat.le_trans ?_ hge
      split <;> omega
    · intro other ho
      cases ho
      refine Nat.lt_of_lt_of_le ?_ hge
      split <;> omega

/-! ## The numbers of the study dates -/

theorem countP_stretch {first last : Nat} (hle : first ≤ last)
    (hstudy : isStudyDate rest last = true)
    (hrest : ∀ date, first ≤ date → date < last → isStudyDate rest date = false) :
    (List.range' first (last + 1 - first)).countP (isStudyDate rest) = 1 := by
  have hlen : last + 1 - first = (last - first) + 1 := by omega
  have hend : first + (last - first) = last := by omega
  have hnone : (List.range' first (last - first)).countP (isStudyDate rest) = 0 := by
    rw [List.countP_eq_zero]
    intro date hdate
    rw [List.mem_range'_1] at hdate
    rw [hrest date hdate.1 (by omega)]
    exact Bool.false_ne_true
  rw [hlen, List.range'_1_concat, List.countP_append, hnone, hend, List.countP_singleton,
    if_pos hstudy]

theorem studyDates_first {start date : Nat} (hle : start ≤ date)
    (hstudy : isStudyDate rest date = true)
    (hrest : ∀ other, start ≤ other → other < date → isStudyDate rest other = false) :
    studyDates rest start date = 1 :=
  countP_stretch hle hstudy hrest

theorem studyDates_next {start date next : Nat} (hle : start ≤ date) (hlt : date < next)
    (hstudy : isStudyDate rest next = true)
    (hrest : ∀ other, date < other → other < next → isStudyDate rest other = false) :
    studyDates rest start next = studyDates rest start date + 1 := by
  have hspl : next + 1 - start = (date + 1 - start) + (next + 1 - (date + 1)) := by omega
  have hend : start + (date + 1 - start) = date + 1 := by omega
  have hlast := countP_stretch (Nat.succ_le_of_lt hlt) hstudy hrest
  unfold studyDates
  rw [hspl, ← List.range'_append_1, List.countP_append, hend, hlast]

theorem studyDates_nextStudyDate (scheme : SchemeInfo) {start date : Nat}
    (hweek : scheme.restWeekdays.dedup.length < 7) (hle : start ≤ date) :
    isStudyDate scheme.restWeekdays (scheme.nextStudyDate date) = true ∧
      studyDates scheme.restWeekdays start (scheme.nextStudyDate date) =
        studyDates scheme.restWeekdays start date + 1 := by
  have hstudy := skipRestDates_isStudyDate hweek (date + 1)
  have hge : date + 1 ≤ scheme.nextStudyDate date := skipRestDates_ge (date + 1) 7
  refine ⟨hstudy, studyDates_next hle hge hstudy ?_⟩
  intro other ho hb
  exact skipRestDates_rest ho hb

theorem exists_numbered (hweek : rest.dedup.length < 7) (start num : Nat) :
    ∃ date, start ≤ date ∧ isStudyDate rest date = true ∧
      studyDates rest start date = num + 1 := by
  induction num with
  | zero =>
    have hge : start ≤ skipRestDates rest start 7 := skipRestDates_ge start 7
    have hstudy := skipRestDates_isStudyDate hweek start
    refine ⟨skipRestDates rest start 7, hge, hstudy, studyDates_first hge hstudy ?_⟩
    intro other ho hb
    exact skipRestDates_rest ho hb
  | succ num ih =>
    obtain ⟨date, hle, -, hnum⟩ := ih
    have hnext := studyDates_nextStudyDate ⟨rest, []⟩ hweek hle
    have hge : date + 1 ≤ SchemeInfo.nextStudyDate ⟨rest, []⟩ date := skipRestDates_ge _ 7
    exact ⟨SchemeInfo.nextStudyDate ⟨rest, []⟩ date, hle.trans (Nat.le_of_succ_le hge), hnext.1,
      by rw [hnext.2, hnum]⟩

theorem countP_sundays {start : Nat} (hmonday : weekday start = 0) (days : Nat) :
    (List.range' start days).countP (isStudyDate [6]) = days / 7 * 6 + min (days % 7) 6 := by
  induction days with
  | zero => rfl
  | succ days ih =>
    have hday : weekday (start + days) = days % 7 := by
      unfold weekday at *
      omega
    have hstudy : isStudyDate [6] (start + days) = true ↔ days % 7 ≠ 6 := by
      simp [isStudyDate, hday]
    rw [List.range'_1_concat, List.countP_append, ih, List.countP_singleton]
    by_cases hsunday : days % 7 = 6
    · rw [if_neg (by rw [hstudy]; simpa using hsunday)]
      omega
    · rw [if_pos (hstudy.mpr hsunday)]
      omega

theorem curriculumDayNumber_eq {start : Nat} (hmonday : weekday start = 0) (date : Date) :
    curriculumDayNumber start date = studyDayNumber [6] start date := by
  by_cases hle : start ≤ date
  · rw [studyDayNumber_eq hle]
    unfold curriculumDayNumber
    have hchk : raiseFirst [(weekday start != 0,
          PlanError.schedulePolicy "study start date must be a Monday roadmap anchor"),
        (decide (date < start),
          PlanError.schedulePolicy "study date precedes the roadmap anchor")] = .ok () := by
      rw [raiseFirst_eq_ok]
      simp [hmonday, hle]
    rw [hchk]
    show (if weekday date = 6 then Except.ok none
      else Except.ok (some ((date - start) / 7 * 6 + weekday date + 1))) = _
    by_cases hsunday : weekday date = 6
    · rw [if_pos hsunday, if_neg]
      simp [isStudyDate, hsunday]
    · have hnum : studyDates [6] start date = (date - start) / 7 * 6 + weekday date + 1 := by
        unfold studyDates
        rw [countP_sundays hmonday]
        unfold weekday at *
        omega
      rw [if_neg hsunday, if_pos, hnum]
      simp [isStudyDate, hsunday]
  · have hlt : date < start := Nat.lt_of_not_le hle
    simp only [curriculumDayNumber, studyDayNumber, raiseFirst, hmonday, hlt]
    rfl

structure Numbering (scheme : SchemeInfo) (start : Date) : Prop where
  study : ∀ date number, studyDayNumber scheme.restWeekdays start date = .ok (some number) →
    start ≤ date ∧ isStudyDate scheme.restWeekdays date = true ∧ 0 < number
  numbered : ∀ date, start ≤ date → isStudyDate scheme.restWeekdays date = true →
    ∃ number, studyDayNumber scheme.restWeekdays start date = .ok (some number)
  increasing : ∀ date later number laterNumber, date < later →
    studyDayNumber scheme.restWeekdays start date = .ok (some number) →
    studyDayNumber scheme.restWeekdays start later = .ok (some laterNumber) →
    number < laterNumber
  onto : ∀ number, 0 < number →
    ∃! date, studyDayNumber scheme.restWeekdays start date = .ok (some number)
  first : ∀ date, start ≤ date → isStudyDate scheme.restWeekdays date = true →
    (∀ other, start ≤ other → other < date → isStudyDate scheme.restWeekdays other = false) →
    studyDayNumber scheme.restWeekdays start date = .ok (some 1)
  next : ∀ date number, studyDayNumber scheme.restWeekdays start date = .ok (some number) →
    studyDayNumber scheme.restWeekdays start (scheme.nextStudyDate date) =
      .ok (some (number + 1))

theorem studyDayNumber_study {start date : Nat} (hle : start ≤ date)
    (hstudy : isStudyDate rest date = true) :
    studyDayNumber rest start date = .ok (some (studyDates rest start date)) := by
  rw [studyDayNumber_eq hle, if_pos hstudy]

theorem studyDates_pos {start date : Nat} (hle : start ≤ date)
    (hstudy : isStudyDate rest date = true) : 0 < studyDates rest start date := by
  unfold studyDates
  rw [List.countP_pos_iff]
  exact ⟨date, List.mem_range'_1.mpr ⟨hle, by omega⟩, hstudy⟩

/-- Study dates are numbered one after the other from one on, and with Sundays
off from a Monday the numbers are the curriculum days. -/
theorem study_numbering {scheme : SchemeInfo} (hweek : scheme.restWeekdays.dedup.length < 7)
    (start : Date) :
    Numbering scheme start ∧
      (weekday start = 0 → ∀ date,
        studyDayNumber [6] start date = curriculumDayNumber start date) := by
  have increasing : ∀ date later number laterNumber, date < later →
      studyDayNumber scheme.restWeekdays start date = .ok (some number) →
      studyDayNumber scheme.restWeekdays start later = .ok (some laterNumber) →
      number < laterNumber := by
    intro date later number laterNumber hlt hdate hlater
    obtain ⟨hle, -, rfl⟩ := studyDayNumber_ok hdate
    obtain ⟨-, hstudy, rfl⟩ := studyDayNumber_ok hlater
    exact studyDates_lt hle hlt hstudy
  refine ⟨⟨?_, ?_, increasing, ?_, ?_, ?_⟩, ?_⟩
  · intro date number h
    obtain ⟨hle, hstudy, rfl⟩ := studyDayNumber_ok h
    exact ⟨hle, hstudy, studyDates_pos hle hstudy⟩
  · intro date hle hstudy
    exact ⟨_, studyDayNumber_study hle hstudy⟩
  · intro number hpos
    obtain ⟨date, hle, hstudy, hnumber⟩ := exists_numbered hweek start (number - 1)
    have hdate : studyDayNumber scheme.restWeekdays start date = .ok (some number) := by
      rw [studyDayNumber_study hle hstudy, hnumber, Nat.sub_add_cancel hpos]
    refine ⟨date, hdate, ?_⟩
    intro other hother
    -- Two dates of one number would be ordered, and so would be their numbers.
    rcases Nat.lt_trichotomy other date with hlt | heq | hlt
    · exact absurd (increasing _ _ _ _ hlt hother hdate) (Nat.lt_irrefl number)
    · exact heq
    · exact absurd (increasing _ _ _ _ hlt hdate hother) (Nat.lt_irrefl number)
  · intro date hle hstudy hrest
    rw [studyDayNumber_study hle hstudy, studyDates_first hle hstudy hrest]
  · intro date number h
    obtain ⟨hle, hstudy, rfl⟩ := studyDayNumber_ok h
    obtain ⟨hnext, hnumber⟩ := studyDates_nextStudyDate scheme hweek hle
    have hge : date + 1 ≤ scheme.nextStudyDate date := skipRestDates_ge _ 7
    rw [studyDayNumber_study (hle.trans (Nat.le_of_succ_le hge)) hnext, hnumber]
  · intro hmonday date
    exact (curriculumDayNumber_eq hmonday date).symm

/-- A five-day week. -/
theorem study_numbering_five_days :
    Numbering ⟨[5, 6], []⟩ 3 ∧
      (weekday 3 = 0 → ∀ date, studyDayNumber [6] 3 date = curriculumDayNumber 3 date) :=
  study_numbering (by decide) 3

end TamForge.Learning
