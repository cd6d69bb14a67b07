import TamForge.Learning.Proofs.Runs
import TamForge.Learning.Repository

/-!
# What planning a day can do

The inversion of `ensure_current_day`: a call finds a rest day, finds the day it
planned before, or writes one day with its activities.  A written day is one
that the activity service accepts as planned.
-/

namespace TamForge.Learning.StudyDayService

open Models ProofSupport Roadmaps
open Learning.ActivityService (StudyDayRow ActivityRow Planned)

variable {env : Env} {calendar after : Calendar} {ownerId : Nat} {setting : LearnerSetting}
  {found : Scheduled} {version : RoadmapVersion} {plan : DayPlan}
  {definitions : List TaskDefinitionRow} {record : StudyDayRecord}

/-! ## The plan -/

theorem buildDay_dayType {localDate : Date} {curriculumDay : Option Nat}
    {tasks : List TaskTemplate} {interviews : List InterviewCommitment}
    {unfinished : List UnfinishedWork} {budget : DayBudget}
    (h : buildDay localDate curriculumDay tasks interviews unfinished budget = .ok plan) :
    plan.localDate = localDate ∧
      plan.dayType =
        if budget.dayType = .sunday ∨ interviews = [] then budget.dayType else .interview := by
  unfold buildDay at h
  split at h
  · rename_i hsunday
    cases h
    exact ⟨rfl, by rw [if_pos (Or.inl hsunday), hsunday]⟩
  · rename_i hstudy
    simp only [bind_ok_iff] at h
    obtain ⟨_, -, _, -, _, -, hplan⟩ := h
    cases hplan
    refine ⟨rfl, ?_⟩
    show (if interviews.isEmpty = true then budget.dayType else DayType.interview) = _
    cases interviews with
    | nil => rw [if_pos List.isEmpty_nil, if_pos (Or.inr rfl)]
    | cons first rest =>
      rw [if_neg (by simp), if_neg]
      rintro (hsunday | hnone)
      · exact hstudy hsunday
      · cases hnone

structure PlanFrom (calendar : Calendar) (setting : LearnerSetting) (found : Scheduled)
    (number : Nat) (version : RoadmapVersion) (plan : DayPlan)
    (definitions : List TaskDefinitionRow) : Prop where
  number_eq : found.curriculumDay = some number
  version_eq : found.version = some version
  active : version.state = .active
  date_eq : plan.localDate = found.localDate
  dayType_eq : plan.dayType =
    if (found.scheme.budget (some number) found.localDate).dayType = .sunday ∨
        interviewsOn calendar setting.ownerId found.zone found.localDate = []
    then (found.scheme.budget (some number) found.localDate).dayType else .interview
  belongs : ∀ definition ∈ definitions, ∃ ordinal,
    (definition, ordinal) ∈ definitionsOf calendar setting.ownerId version.id number

theorem planOf_ok (h : planOf calendar setting found = .ok (version, plan, definitions)) :
    ∃ num, PlanFrom calendar setting found num version plan definitions := by
  unfold planOf at h
  split at h
  · rename_i num hnum
    split at h
    · rename_i active hact
      simp only [bind_ok_iff] at h
      obtain ⟨_, hgrd, interviews, hinterviews, templates, -, _, -, built, hbuilt, hres⟩ := h
      cases hres
      have hst := raiseFirst_eq_ok.mp hgrd
      simp only [List.forall_mem_cons, bne_eq_false_iff_eq] at hst
      obtain ⟨hdate, htype⟩ := buildDay_dayType hbuilt
      -- The commitments are one for each interview.
      have hnil : interviews = [] ↔
          interviewsOn calendar setting.ownerId found.zone found.localDate = [] := by
        have hlen := (mapM_ok_iff.mp hinterviews).length_eq
        rw [← List.length_eq_zero_iff, ← List.length_eq_zero_iff, hlen]
      refine ⟨num, hnum, hact, hst.1, hdate, ?_, ?_⟩
      · rw [htype]
        simp only [hnil]
      · intro defn hmem
        obtain ⟨task, -, hf⟩ := List.mem_filterMap.mp hmem
        obtain ⟨item, hitem, rfl⟩ := List.mem_map.mp (List.mem_of_find?_eq_some hf)
        exact ⟨item.2, hitem⟩
    · cases h
  · cases h

/-- What the lookups of a call say about a date that is no rest day. -/
theorem scheduled_ok (h : scheduled env calendar setting = .ok (some found)) :
    found.version = setting.activeRoadmapVersionId.bind (calendar.version? setting.ownerId) ∧
      schemeForVersion (found.version.bind RoadmapVersion.scheme) = .ok found.scheme ∧
      ∀ num, found.curriculumDay = some num →
        found.scheme.dayNumber (studyAnchor setting.studyStartDate found.version)
          found.localDate = .ok (some num) := by
  unfold scheduled at h
  split at h
  · simp only [bind_ok_iff] at h
    obtain ⟨scheme, hsch, h⟩ := h
    split at h
    · simp only [bind_ok_iff] at h
      obtain ⟨num?, hnum, h⟩ := h
      split at h
      · cases h
      · cases h
        refine ⟨rfl, hsch, ?_⟩
        intro num heq
        rw [← heq]
        exact hnum
    · cases h
      exact ⟨rfl, hsch, fun num hnone => by cases hnone⟩
  · cases h

/-! ## The rows -/

theorem newActivities_ok {studyDayId next : Nat} {activities : List ActivityRow}
    (h : newActivities env version studyDayId next definitions = .ok activities) :
    activities.map (fun act => act.id) = List.range' next activities.length ∧
      (∀ act ∈ activities, act.ownerId = version.ownerId ∧
        act.studyDayId = studyDayId ∧ act.roadmapVersionId = version.id ∧
        act.state = .ready) ∧
      activities.map (fun act => act.taskDefinitionId) =
        definitions.map fun defn => defn.id := by
  induction definitions generalizing next activities with
  | nil =>
    cases h
    exact ⟨rfl, by simp, rfl⟩
  | cons defn rest ih =>
    unfold newActivities at h
    split at h
    · simp only [bind_ok_iff] at h
      obtain ⟨os, hos, hres⟩ := h
      cases hres
      obtain ⟨hids, hrows, htasks⟩ := ih hos
      refine ⟨?_, ?_, ?_⟩
      · rw [List.map_cons, hids, List.length_cons, List.range'_succ]
      · intro act hmem
        rcases List.mem_cons.mp hmem with rfl | hrest
        · exact ⟨rfl, rfl, rfl, rfl⟩
        · exact hrows act hrest
      · rw [List.map_cons, htasks, List.map_cons]
    · cases h

structure Written (calendar : Calendar) (version : RoadmapVersion) (plan : DayPlan)
    (definitions : List TaskDefinitionRow) (day : StudyDayRow) (activities : List ActivityRow)
    (after : Calendar) : Prop where
  planned : Planned calendar.toDb day activities
  day_owner : day.ownerId = version.ownerId
  day_version : day.roadmapVersionId = version.id
  day_date : day.localDate = plan.localDate
  day_type : day.dayType = plan.dayType
  activity_version : ∀ activity ∈ activities, activity.roadmapVersionId = version.id
  tasks : activities.map (fun activity => activity.taskDefinitionId) =
    definitions.map fun definition => definition.id
  after_eq : after = { calendar with toDb := calendar.toDb.plan day activities }

theorem writePlan_ok
    (h : writePlan env calendar version plan definitions = .ok (record, after)) :
    ∃ day activities, Written calendar version plan definitions day activities after ∧
      record = StudyDayService.record day (activities.map fun act => act.id) true := by
  simp only [writePlan, bind_ok_iff] at h
  obtain ⟨_, -, activities, hacts, hres⟩ := h
  cases hres
  obtain ⟨hids, hrows, htasks⟩ := newActivities_ok hacts
  refine ⟨_, activities, ?_, rfl⟩
  constructor
  · constructor
    · rfl
    · rfl
    · rfl
    · exact hids
    · exact fun act hmem => (hrows act hmem).1
    · exact fun act hmem => (hrows act hmem).2.1
    · exact fun act hmem => (hrows act hmem).2.2.2
  · rfl
  · rfl
  · rfl
  · rfl
  · exact fun act hmem => (hrows act hmem).2.2.1
  · exact htasks
  · rfl

/-! ## The call -/

structure Created (env : Env) (calendar : Calendar) (ownerId : Nat) (setting : LearnerSetting)
    (found : Scheduled) (number : Nat) (version : RoadmapVersion) (plan : DayPlan)
    (definitions : List TaskDefinitionRow) (day : StudyDayRow) (activities : List ActivityRow)
    (after : Calendar) : Prop where
  setting_eq : calendar.setting? ownerId = some setting
  scheduled_eq : scheduled env calendar setting = .ok (some found)
  unplanned : calendar.dayOn? ownerId found.localDate = none
  plan_from : PlanFrom calendar setting found number version plan definitions
  written : Written calendar version plan definitions day activities after

theorem ensureDay_cases {res : Option StudyDayRecord}
    (h : ensureDay env calendar ownerId = .ok (res, after)) :
    (after = calendar ∧ ∀ record, res = some record → record.created = false) ∨
      ∃ setting found num version plan definitions day activities,
        Created env calendar ownerId setting found num version plan definitions day
          activities after ∧
        res =
          some (StudyDayService.record day (activities.map fun act => act.id) true) := by
  unfold ensureDay at h
  simp only [bind_ok_iff] at h
  obtain ⟨_, -, h⟩ := h
  split at h
  · rename_i setting hset
    simp only [bind_ok_iff] at h
    obtain ⟨found?, hschedd, h⟩ := h
    split at h
    · cases h
      exact Or.inl ⟨rfl, fun _ hnone => by cases hnone⟩
    · rename_i found
      split at h
      · cases h
        refine Or.inl ⟨rfl, ?_⟩
        rintro record ⟨⟩
        rfl
      · rename_i hunplanned
        simp only [bind_ok_iff] at h
        obtain ⟨⟨version, plan, definitions⟩, hplan, ⟨written, after'⟩, hwrite, hres⟩ := h
        cases hres
        obtain ⟨num, hfrom⟩ := planOf_ok hplan
        obtain ⟨day, activities, hwr, hrec⟩ := writePlan_ok hwrite
        refine Or.inr ⟨setting, found, num, version, plan, definitions, day, activities, ?_, ?_⟩
        · exact ⟨hset, hschedd, hunplanned, hfrom, hwr⟩
        · rw [← hrec]
  · cases h

end TamForge.Learning.StudyDayService
