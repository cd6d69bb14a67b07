import TamForge.Learning.Proofs.Planning

/-!
# The cap of a plan and the cap of its timers

A plan is accepted under the maximum of its budget; the timers of the day work
with a cap that the type of the day gives.  The two agree for the budgets of the
fixed week and for no other.
-/

namespace TamForge.Learning.StudyDayService

open Models ProofSupport Roadmaps
open Learning.ActivityService (maximumMinutes sampleStore sampleDefinition)

def storedDay? (stored : Option StoredScheme) (number : Nat) : Option StoredDay :=
  stored.bind fun scheme => scheme.days.lookup number

theorem lookup_budgets {days : List (Nat × StoredDay)} {budgets : List (Nat × DayBudget)}
    (h : days.mapM (fun entry => do
      let budget ← budgetForDay entry.2.kind entry.2.budgetMinutes
      return (entry.1, budget)) = .ok budgets) (num : Nat) :
    match days.lookup num with
    | some day => ∃ budget, budgetForDay day.kind day.budgetMinutes = .ok budget ∧
        budgets.lookup num = some budget
    | none => budgets.lookup num = none := by
  have hpairs := mapM_ok_iff.mp h
  clear h
  induction hpairs with
  | nil => rfl
  | @cons entry pair days budgets hent _ ih =>
    obtain ⟨other, day⟩ := entry
    simp only [bind_ok_iff] at hent
    obtain ⟨budget, hbudg, hpair⟩ := hent
    cases hpair
    by_cases hnum : num = other
    · subst hnum
      simp only [List.lookup_cons_self]
      exact ⟨budget, hbudg, rfl⟩
    · have hne : (num == other) = false := beq_false_of_ne hnum
      simp only [List.lookup_cons, hne]
      exact ih

theorem schemeForVersion_budget {stored : Option StoredScheme} {scheme : SchemeInfo}
    (h : schemeForVersion stored = .ok scheme) (num : Nat) (localDate : Date) :
    match storedDay? stored num with
    | some day => budgetForDay day.kind day.budgetMinutes =
        .ok (scheme.budget (some num) localDate)
    | none => scheme.budget (some num) localDate = budgetFor localDate := by
  cases stored with
  | none =>
    cases h
    rfl
  | some stored =>
    simp only [schemeForVersion, bind_ok_iff] at h
    obtain ⟨budgets, hbudgets, hsch⟩ := h
    cases hsch
    have hlook := lookup_budgets hbudgets num
    simp only [storedDay?, Option.bind_some]
    cases hday : stored.days.lookup num with
    | none =>
      rw [hday] at hlook
      simp only [SchemeInfo.budget, Option.bind_some, hlook, Option.getD_none]
    | some day =>
      rw [hday] at hlook
      obtain ⟨budget, hbudg, hf⟩ := hlook
      simp only [SchemeInfo.budget, Option.bind_some, hf, Option.getD_some]
      exact hbudg

/-- The days whose type alone gives their cap back: an assessment of two hours
(with an interview, of 255 minutes), a weekday of four hours, and outside the
days of a scheme the days of the fixed week that take their own type. -/
def CapOfType (stored : Option StoredScheme) (number : Nat) (localDate : Date)
    (interviews : List Interview) : Prop :=
  match storedDay? stored number with
  | some day =>
    if day.kind = "assessment" then
      day.budgetMinutes = if interviews = [] then 120 else 255
    else day.budgetMinutes = 240
  | none => weekday localDate < 5 ∨ weekday localDate = 5 ∧ interviews = []

theorem cap_iff_of_scheme {day : StoredDay} {budget : DayBudget} {interviews : List Interview}
    (h : budgetForDay day.kind day.budgetMinutes = .ok budget) :
    maximumMinutes (if budget.dayType = .sunday ∨ interviews = [] then budget.dayType
        else .interview) = budget.maximumMinutes ↔
      if day.kind = "assessment" then
        day.budgetMinutes = if interviews = [] then 120 else 255
      else day.budgetMinutes = 240 := by
  unfold budgetForDay at h
  split at h
  · cases h
  · rename_i hnonneg
    simp only at h
    by_cases hassessment : day.kind = "assessment"
    · rw [if_pos hassessment] at h ⊢
      cases h
      by_cases hfree : interviews = []
      · simp only [hfree, or_true, if_true, maximumMinutes]
        omega
      · simp only [hfree, reduceCtorEq, or_false, if_false, maximumMinutes]
        omega
    · rw [if_neg hassessment] at h ⊢
      split at h
      · cases h
        by_cases hfree : interviews = []
        · simp only [hfree, or_true, if_true, maximumMinutes, reduceCtorEq, if_false]
          omega
        · simp only [hfree, reduceCtorEq, or_false, if_false, maximumMinutes]
          omega
      · cases h

theorem cap_iff_of_date (localDate : Date) (interviews : List Interview) :
    maximumMinutes (if (budgetFor localDate).dayType = .sunday ∨ interviews = []
        then (budgetFor localDate).dayType else .interview) =
      (budgetFor localDate).maximumMinutes ↔
      weekday localDate < 5 ∨ weekday localDate = 5 ∧ interviews = [] := by
  have hlt : weekday localDate < 7 := Nat.mod_lt _ (by decide)
  unfold budgetFor
  by_cases hsunday : weekday localDate = 6
  · simp [hsunday, maximumMinutes]
  · by_cases hsaturday : weekday localDate = 5
    · by_cases hfree : interviews = []
      · simp [hsaturday, hfree, maximumMinutes]
      · simp [hsaturday, hfree, maximumMinutes]
    · have hweek : weekday localDate < 5 := by omega
      by_cases hfree : interviews = []
      · simp [hsunday, hsaturday, hweek, hfree, maximumMinutes]
      · simp [hsunday, hsaturday, hweek, hfree, maximumMinutes]

/-- The cap that the timers of a created day work with is the maximum of the
budget under which it was planned exactly for the days that `CapOfType` names. -/
theorem hard_stop_agrees_iff {env : Env} {calendar after : Calendar} {ownerId number : Nat}
    {setting : LearnerSetting} {found : Scheduled} {version : RoadmapVersion}
    {record : StudyDayRecord} (hsetting : calendar.setting? ownerId = some setting)
    (hscheduled : scheduled env calendar setting = .ok (some found))
    (hnumber : found.curriculumDay = some number) (hversion : found.version = some version)
    (hensure : ensureDay env calendar ownerId = .ok (some record, after))
    (hcreated : record.created = true) :
    ∃ day, after.days.rows = calendar.days.rows ++ [day] ∧ day.id = record.id ∧
      (maximumMinutes day.dayType =
          (found.scheme.budget (some number) found.localDate).maximumMinutes ↔
        CapOfType version.scheme number found.localDate
          (interviewsOn calendar setting.ownerId found.zone found.localDate)) := by
  rcases ensureDay_cases hensure with ⟨-, hexisting⟩ | hcases
  · rw [hexisting record rfl] at hcreated
    cases hcreated
  · obtain ⟨setting', found', number', version', plan, definitions, day, activities, hday,
      hrecord⟩ := hcases
    obtain rfl : setting' = setting := Option.some.inj (hday.setting_eq.symm.trans hsetting)
    have hfound := hday.scheduled_eq.symm.trans hscheduled
    obtain rfl : found' = found := Option.some.inj (Except.ok.inj hfound)
    obtain rfl : number' = number :=
      Option.some.inj (hday.plan_from.number_eq.symm.trans hnumber)
    obtain rfl : version' = version :=
      Option.some.inj (hday.plan_from.version_eq.symm.trans hversion)
    refine ⟨day, ?_, ?_, ?_⟩
    · rw [hday.written.after_eq]
      rfl
    · cases hrecord
      rfl
    · rw [hday.written.day_type, hday.plan_from.dayType_eq]
      have hscheme := (scheduled_ok hscheduled).2.1
      rw [hversion] at hscheme
      have hbudget := schemeForVersion_budget hscheme number' found'.localDate
      simp only [Option.bind_some] at hbudget
      unfold CapOfType
      cases hstored : storedDay? version'.scheme number' with
      | some stored =>
        rw [hstored] at hbudget
        exact cap_iff_of_scheme hbudget
      | none =>
        rw [hstored] at hbudget
        simp only at hbudget ⊢
        rw [hbudget]
        exact cap_iff_of_date _ _

/-! ## A scheme with a day of one hour -/

def sampleVersion (minutes : Int) : RoadmapVersion where
  id := 1
  ownerId := 1
  sourceId := 1
  versionKey := "month-1"
  versionNumber := 1
  monthNumber := 1
  predecessorId := none
  contentHash := "6d6f6e74682d31"
  objectKey := "roadmap-source/1/import"
  scheme := some ⟨[6], [(1, ⟨"weekday", minutes⟩)]⟩
  createdAt := 0
  approvedAt := some 0
  activatedAt := some 0
  supersededAt := none
  startsOn := none
  mirrorStatus := .notRequired
  mirrorRef := none
  mirrorErrorCode := none
  state := .active

/-- A learner in UTC on Monday, 7 September 2026. -/
def sampleCalendar (minutes : Nat) : Calendar where
  toDb := { sampleStore with
    definitions := [{ sampleDefinition with timeboxMinutes := minutes }] }
  settings := [⟨1, "Etc/UTC", 739866, some 1⟩]
  versions := [sampleVersion minutes]
  nodes :=
    [⟨1, 1, 1, "node:w1-d1-sql", some 2, 1, .task, "Write one query.", none, none⟩,
      ⟨2, 1, 1, "m1-w1-d01", none, 1, .day, "Day 1", none, none⟩]
  interviews := []
  exitReviews := []

def sampleEnv : Env where
  zone := fun _ => some ⟨fun _ => 739866, fun date => seconds (date * 86400)⟩
  at_ := 0
  now := 0

def sampleScheduled (minutes : Nat) : Scheduled where
  localDate := 739866
  zone := ⟨fun _ => 739866, fun date => seconds (date * 86400)⟩
  version := some (sampleVersion minutes)
  scheme := ⟨[6], [(1, ⟨.weekday, minutes, minutes - 15, minutes + 15⟩)]⟩
  curriculumDay := some 1

theorem ensureDay_sample_four_hours :
    ∃ record after, ensureDay sampleEnv (sampleCalendar 240) 1 = .ok (some record, after) ∧
      record.created = true :=
  ⟨_, _, rfl, rfl⟩

theorem ensureDay_sample_one_hour :
    ∃ record after, ensureDay sampleEnv (sampleCalendar 60) 1 = .ok (some record, after) ∧
      record.created = true ∧ record.dayType = .weekday :=
  ⟨_, _, rfl, rfl, rfl⟩

/-- A weekday of four hours keeps its cap. -/
theorem hard_stop_sample :
    CapOfType (sampleVersion 240).scheme 1 739866 [] ∧
      ∃ record after, ensureDay sampleEnv (sampleCalendar 240) 1 = .ok (some record, after) ∧
        ∃ day, after.days.rows = (sampleCalendar 240).days.rows ++ [day] ∧
          day.id = record.id ∧
          (maximumMinutes day.dayType =
              ((sampleScheduled 240).scheme.budget (some 1) 739866).maximumMinutes ↔
            CapOfType (sampleVersion 240).scheme 1 739866
              (interviewsOn (sampleCalendar 240) 1 (sampleScheduled 240).zone 739866)) := by
  refine ⟨by simp [CapOfType, storedDay?, sampleVersion], ?_⟩
  obtain ⟨record, after, hensure, hcreated⟩ := ensureDay_sample_four_hours
  exact ⟨record, after, hensure, hard_stop_agrees_iff (rfl : (sampleCalendar 240).setting? 1 =
    some ⟨1, "Etc/UTC", 739866, some 1⟩) (rfl : scheduled sampleEnv (sampleCalendar 240) _ =
    .ok (some (sampleScheduled 240))) rfl rfl hensure hcreated⟩

/-- A weekday of one hour is planned for at most 75 minutes, and its timers run
for 255. -/
theorem hard_stop_one_hour :
    ¬ ∀ (env : Env) (calendar after : Calendar) (ownerId number : Nat)
      (setting : LearnerSetting) (found : Scheduled) (record : StudyDayRecord),
      calendar.setting? ownerId = some setting →
      scheduled env calendar setting = .ok (some found) →
      found.curriculumDay = some number →
      ensureDay env calendar ownerId = .ok (some record, after) → record.created = true →
      maximumMinutes record.dayType =
        (found.scheme.budget (some number) found.localDate).maximumMinutes := by
  intro hall
  obtain ⟨record, after, hensure, hcreated, htype⟩ := ensureDay_sample_one_hour
  have hclaim := hall sampleEnv (sampleCalendar 60) after 1 1 ⟨1, "Etc/UTC", 739866, some 1⟩
    (sampleScheduled 60) record rfl rfl rfl hensure hcreated
  rw [htype] at hclaim
  exact absurd hclaim (by decide)

end TamForge.Learning.StudyDayService
