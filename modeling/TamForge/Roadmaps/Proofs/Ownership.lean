import TamForge.Learning.Proofs.HardStops
import TamForge.Roadmaps.Proofs.Stretches

/-!
# The order of activations is the order of dates

The history of a run: the versions of a learner in the order they were
activated, the last of which is the active one, and their dates in that order.
-/

namespace TamForge.Roadmaps

open Learning Learning.StudyDayService Models ProofSupport
open Learning.ActivityService (StudyDayRow ActivityRow)

/-- Every date planned under `first` is before every date planned under
`second`. -/
def Before (calendar : Calendar) (ownerId first second : Nat) : Prop :=
  ∀ day ∈ calendar.days.rows, ∀ other ∈ calendar.days.rows, day.ownerId = ownerId →
    other.ownerId = ownerId → day.roadmapVersionId = first → other.roadmapVersionId = second →
      day.localDate < other.localDate

structure Ordered (trace : List (Transition Calendar Event)) (calendar : Calendar) : Prop where
  started : ∀ ownerId, ∀ id ∈ activations ownerId trace, ∃ version ∈ calendar.versions,
    version.id = id ∧ Started version
  planned : ∀ day ∈ calendar.days.rows, day.roadmapVersionId ∈ activations day.ownerId trace
  last : ∀ setting ∈ calendar.settings, ∃ earlier id,
    activations setting.ownerId trace = earlier ++ [id] ∧
      setting.activeRoadmapVersionId = some id
  nodup : ∀ ownerId, (activations ownerId trace).Nodup
  ordered : ∀ ownerId, (activations ownerId trace).Pairwise (Before calendar ownerId)

variable {setting : LearnerSetting} {version : RoadmapVersion} {day : StudyDayRow}

section Steps

variable {trace : List (Transition Calendar Event)} {calendar after : Calendar} {event : Event}

theorem ordered_of_empty (h : Empty calendar) : Ordered [] calendar := by
  have hrows : calendar.days.rows = [] := by
    rw [h.days]
    rfl
  constructor
  · simp [activations]
  · simp [hrows]
  · simp [h.settings]
  · simp [activations]
  · simp [activations]

/-- A step without an activation that adds no day. -/
theorem Ordered.quiet (h : Ordered trace calendar) (hcont : Continues calendar after)
    (hsets : after.settings = calendar.settings)
    (hdays : after.days.rows = calendar.days.rows)
    (hev : ∀ ownerId, event.activation? ownerId = none) :
    Ordered (trace ++ [⟨calendar, event, after⟩]) after := by
  have hsame : ∀ ownerId, activations ownerId (trace ++ [⟨calendar, event, after⟩]) =
      activations ownerId trace := by
    intro ownerId
    rw [activations_snoc, hev, Option.toList_none, List.append_nil]
  constructor
  · intro ownerId id hid
    rw [hsame] at hid
    obtain ⟨version, hmem, rfl, hstart⟩ := h.started ownerId id hid
    obtain ⟨later, hlat, hlatId, -, -, -, hlatStart⟩ :=
      hcont.versions version hmem hstart
    exact ⟨later, hlat, hlatId, hlatStart⟩
  · intro day hmem
    rw [hdays] at hmem
    rw [hsame]
    exact h.planned day hmem
  · intro setting hmem
    rw [hsets] at hmem
    rw [hsame]
    exact h.last setting hmem
  · intro ownerId
    rw [hsame]
    exact h.nodup ownerId
  · intro ownerId
    rw [hsame]
    refine (h.ordered ownerId).imp fun hb => ?_
    unfold Before
    rw [hdays]
    exact hb

variable {env : Env} {ownerId : Nat}

theorem Ordered.activate {versionId : Nat} {timezone : Option String}
    {res tgt : RoadmapVersion} {startsOn : Option Date} {settings : List LearnerSetting}
    (h : Ordered trace calendar) (howned : Owned calendar)
    (hactd : Activated env calendar ownerId versionId tgt startsOn settings after) :
    Ordered (trace ++ [⟨calendar, .activated ownerId versionId timezone (.ok res), after⟩])
      after := by
  have hown : activations ownerId
      (trace ++ [⟨calendar, .activated ownerId versionId timezone (.ok res), after⟩]) =
        activations ownerId trace ++ [versionId] := by
    rw [activations_snoc]
    simp [Event.activation?]
  have ho : ∀ owner, owner ≠ ownerId → activations owner
      (trace ++ [⟨calendar, .activated ownerId versionId timezone (.ok res), after⟩]) =
        activations owner trace := by
    intro owner hne
    rw [activations_snoc]
    simp [Event.activation?, hne.symm]
  have hcont := continues_activated howned hactd
  have hfresh : ∀ version ∈ calendar.versions, Started version → version.id ≠ versionId := by
    intro version hmem hstart
    rw [← hactd.target_id]
    exact target_not_started howned hactd hmem hstart
  -- No day was planned under the target yet.
  have hnone : ∀ day ∈ calendar.days.rows, day.roadmapVersionId ≠ versionId := by
    intro day hmem hid
    obtain ⟨setting, version, stored, hnumd, hstart⟩ := howned.numbered day hmem
    exact hfresh version hnumd.version_mem hstart (hnumd.version_id.trans hid)
  have hdays : after.days.rows = calendar.days.rows := by
    rw [hactd.after_eq]
  have hsets : after.settings = settings := by
    rw [hactd.after_eq]
  have hb : ∀ owner first second, Before calendar owner first second →
      Before after owner first second := by
    intro owner first second hb
    unfold Before
    rw [hdays]
    exact hb
  constructor
  · intro owner id hid
    by_cases howner : owner = ownerId
    · subst howner
      rw [hown] at hid
      rcases List.mem_append.mp hid with hold | hnew
      · obtain ⟨version, hmem, rfl, hstart⟩ := h.started owner id hold
        obtain ⟨later, hlat, hlatId, -, -, -, hlatStart⟩ :=
          hcont.versions version hmem hstart
        exact ⟨later, hlat, hlatId, hlatStart⟩
      · rw [List.mem_singleton.mp hnew, hactd.after_eq]
        exact ⟨_, List.mem_map.mpr ⟨tgt, hactd.target_mem, if_pos rfl⟩,
          hactd.target_id, Or.inl rfl⟩
    · rw [ho owner howner] at hid
      obtain ⟨version, hmem, rfl, hstart⟩ := h.started owner id hid
      obtain ⟨later, hlat, hlatId, -, -, -, hlatStart⟩ :=
        hcont.versions version hmem hstart
      exact ⟨later, hlat, hlatId, hlatStart⟩
  · intro day hmem
    rw [hdays] at hmem
    have hplan := h.planned day hmem
    by_cases howner : day.ownerId = ownerId
    · rw [howner] at hplan ⊢
      rw [hown]
      exact List.mem_append_left _ hplan
    · rw [ho _ howner]
      exact hplan
  · intro setting hmem
    rw [hsets] at hmem
    rcases hactd.selected.cases_mem hmem with ⟨howner, hid⟩ | ⟨hne, hold⟩
    · rw [howner, hown]
      exact ⟨_, versionId, rfl, by rw [hid, hactd.target_id]⟩
    · rw [ho _ hne]
      exact h.last setting hold
  · intro owner
    by_cases howner : owner = ownerId
    · subst howner
      rw [hown, List.nodup_append]
      refine ⟨h.nodup owner, List.nodup_singleton _, ?_⟩
      intro id hid other hlast heq
      obtain ⟨version, hmem, hver, hstart⟩ := h.started owner id hid
      rw [List.mem_singleton.mp hlast] at heq
      exact hfresh version hmem hstart (hver.trans heq)
    · rw [ho owner howner]
      exact h.nodup owner
  · intro owner
    by_cases howner : owner = ownerId
    · subst howner
      rw [hown, List.pairwise_append]
      refine ⟨(h.ordered owner).imp fun hpair => hb _ _ _ hpair,
        List.pairwise_singleton _ _, ?_⟩
      intro first _ second hsec
      rw [List.mem_singleton.mp hsec]
      intro day _ other hmem _ _ _ hver
      rw [hdays] at hmem
      exact absurd hver (hnone other hmem)
    · rw [ho owner howner]
      exact (h.ordered owner).imp fun hpair => hb _ _ _ hpair

/-- A new day keeps two versions in order, if the first does not own it and the days of
the first are earlier in case that the second does. -/
theorem Before.snoc {ownerId first second : Nat} (hb : Before calendar ownerId first second)
    (hdays : after.days.rows = calendar.days.rows ++ [day])
    (hfst : day.ownerId = ownerId → day.roadmapVersionId ≠ first)
    (hsec : day.ownerId = ownerId → day.roadmapVersionId = second →
      ∀ other ∈ calendar.days.rows, other.ownerId = ownerId →
        other.roadmapVersionId = first → other.localDate < day.localDate) :
    Before after ownerId first second := by
  intro one hone two htwo honeOwn htwoOwn honeVer htwoVer
  rw [hdays] at hone htwo
  rcases List.mem_append.mp hone with hone | hone
  · rcases List.mem_append.mp htwo with htwo | htwo
    · exact hb one hone two htwo honeOwn htwoOwn honeVer htwoVer
    · rw [List.mem_singleton.mp htwo] at htwoOwn htwoVer ⊢
      exact hsec htwoOwn htwoVer one hone honeOwn honeVer
  · rw [List.mem_singleton.mp hone] at honeOwn honeVer
    exact absurd honeVer (hfst honeOwn)

theorem Ordered.create {num : Nat} {found : Scheduled} {plan : DayPlan}
    {definitions : List TaskDefinitionRow} {activities : List ActivityRow}
    {out : Except PlanError (Option StudyDayRecord)} (h : Ordered trace calendar)
    (howned : Owned calendar)
    (hcrt : Created env calendar ownerId setting found num version plan definitions day
      activities after)
    : Ordered (trace ++ [⟨calendar, .ensured ownerId out, after⟩]) after := by
  have hsame : ∀ owner, activations owner
      (trace ++ [⟨calendar, .ensured ownerId out, after⟩]) = activations owner trace := by
    intro owner
    rw [activations_snoc]
    simp [Event.activation?]
  obtain ⟨hset, hsetOwn, hver, hverOwn, hverId, hsel, stored, -,
    hfrom, -, -⟩ := created_version howned hcrt
  obtain ⟨earl, id, hlast, hid⟩ := h.last setting hset
  rw [hsel] at hid
  obtain rfl := Option.some.inj hid
  rw [hsetOwn] at hlast
  have hdays : after.days.rows = calendar.days.rows ++ [day] := by
    rw [hcrt.written.after_eq]
    rfl
  have hcont := continues_created hcrt
  constructor
  · intro owner other ho
    rw [hsame] at ho
    obtain ⟨found, hmem, rfl, hstart⟩ := h.started owner other ho
    obtain ⟨later, hlat, hlatId, -, -, -, hlatStart⟩ :=
      hcont.versions found hmem hstart
    exact ⟨later, hlat, hlatId, hlatStart⟩
  · intro other hmem
    rw [hsame]
    rw [hdays] at hmem
    rcases List.mem_append.mp hmem with hold | hnew
    · exact h.planned other hold
    · rw [List.mem_singleton.mp hnew, hlast, ← hverId]
      exact List.mem_append_right _ (List.mem_singleton.mpr rfl)
  · intro other hmem
    rw [hsame]
    have hsets : after.settings = calendar.settings := by
      rw [hcrt.written.after_eq]
    rw [hsets] at hmem
    exact h.last other hmem
  · intro owner
    rw [hsame]
    exact h.nodup owner
  · intro owner
    rw [hsame]
    by_cases hown : owner = day.ownerId
    · subst hown
      have hord := h.ordered day.ownerId
      have hnd := h.nodup day.ownerId
      rw [hlast] at hord hnd ⊢
      obtain ⟨hearl, -, hpairs⟩ := List.pairwise_append.mp hord
      obtain ⟨-, -, hdisj⟩ := List.nodup_append.mp hnd
      have hnew : ∀ first ∈ earl, first ≠ day.roadmapVersionId := by
        intro first hmem heq
        exact hdisj first hmem version.id (List.mem_singleton.mpr rfl)
          (heq.trans hverId.symm)
      rw [List.pairwise_append]
      refine ⟨?_, List.pairwise_singleton _ _, ?_⟩
      · -- Two earlier versions own none of the new days.
        refine hearl.imp_of_mem fun {first second} hfst hsec hb => hb.snoc hdays ?_ ?_
        · exact fun _ heq => hnew first hfst heq.symm
        · exact fun _ heq => absurd heq.symm (hnew second hsec)
      · intro first hfst second hsec
        have hb := hpairs first hfst second hsec
        rw [List.mem_singleton.mp hsec] at hb ⊢
        refine hb.snoc hdays (fun _ heq => hnew first hfst heq.symm) ?_
        -- The active version started after everything planned before it.
        intro _ _ one hone honeOwn honeVer
        have hdiffers : one.roadmapVersionId ≠ version.id := by
          rw [honeVer, hverId]
          exact hnew first hfst
        have hlt := howned.before setting hset version hver (hverOwn.trans hsetOwn.symm) hsel
          one hone (honeOwn.trans hsetOwn.symm) hdiffers
        exact Nat.lt_of_lt_of_le hlt hfrom
    · -- The new day belongs to another learner.
      refine (h.ordered owner).imp fun hb => hb.snoc hdays ?_ ?_
      · exact fun hdayOwn => absurd hdayOwn.symm hown
      · exact fun hdayOwn => absurd hdayOwn.symm hown

theorem Ordered.effect (h : Ordered trace calendar) (howned : Owned calendar)
    (heff : Effect calendar event after) :
    Ordered (trace ++ [⟨calendar, event, after⟩]) after := by
  cases heff with
  | quiet settings versions nodes store event_quiet =>
    exact h.quiet (continues_quiet settings versions nodes store) settings (by rw [store])
      event_quiet
  | approved happr => exact h.quiet continues_approved rfl rfl fun _ => rfl
  | activated hactd => exact h.activate howned hactd
  | created hcrt => exact h.create howned hcrt

end Steps

theorem owned_of_run {start final : Calendar} {trace : List (Transition Calendar Event)}
    (hnil : Empty start) (hrun : Run Step start trace final) :
    Owned final ∧ Ordered trace final := by
  refine hrun.invariant (I := fun trace calendar => Owned calendar ∧ Ordered trace calendar)
    ⟨owned_of_empty hnil, ordered_of_empty hnil⟩ ?_
  rintro trace calendar event after ⟨howned, hord⟩ hstep
  exact ⟨howned.effect hstep.effect, hord.effect howned hstep.effect⟩

theorem Numbered.date_eq {calendar : Calendar} {other : StudyDayRow} {stored : StoredScheme}
    (h : Numbered calendar day setting version stored)
    (ho : Numbered calendar other setting version stored)
    (hnum : studyDates stored.restWeekdays
        (studyAnchor setting.studyStartDate (some version)) day.localDate =
      studyDates stored.restWeekdays
        (studyAnchor setting.studyStartDate (some version)) other.localDate)
    : day.localDate = other.localDate := by
  rcases Nat.lt_trichotomy day.localDate other.localDate with hlt | heq | hgt
  · have hless := studyDates_lt h.from_anchor hlt ho.study
    omega
  · exact heq
  · have hless := studyDates_lt ho.from_anchor hgt h.study
    omega

/-- In every run from an empty store the active version is the one of the
settings and the only one; planned days stay as they are; the dates of the
versions are in the order of their activations; and the tasks of a day are those
of the scheme day that counts the study dates since the first date of its
version, each scheme day on one date. -/
theorem versions_own_stretches {start final : Calendar}
    {trace : List (Transition Calendar Event)} (hempty : Empty start)
    (hrun : Run Step start trace final) :
    (∀ version ∈ final.versions, version.state = .active →
      (∃ setting ∈ final.settings, setting.ownerId = version.ownerId ∧
        setting.activeRoadmapVersionId = some version.id) ∧
      ∀ other ∈ final.versions, other.ownerId = version.ownerId → other.state = .active →
        other = version) ∧
    (∀ step ∈ trace, step.before.days.rows <+: step.after.days.rows) ∧
    (∀ ownerId, (activations ownerId trace).Pairwise (Before final ownerId)) ∧
    (∀ day ∈ final.days.rows, ∃ setting version stored,
      Numbered final day setting version stored) ∧
    ∀ day ∈ final.days.rows, ∀ other ∈ final.days.rows, ∀ setting version stored,
      Numbered final day setting version stored →
      Numbered final other setting version stored →
      studyDates stored.restWeekdays (studyAnchor setting.studyStartDate (some version))
          day.localDate =
        studyDates stored.restWeekdays (studyAnchor setting.studyStartDate (some version))
          other.localDate →
      day.localDate = other.localDate := by
  obtain ⟨howned, hordered⟩ := owned_of_run hempty hrun
  refine ⟨?_, ?_, hordered.ordered, ?_, ?_⟩
  · intro version hmem hactive
    refine ⟨howned.active version hmem hactive, ?_⟩
    intro other hother howner hotherActive
    exact howned.active_eq hother hmem howner hotherActive hactive
  · exact hrun.forall_transition (I := fun _ => True) trivial (fun _ _ _ _ _ => trivial)
      fun _ _ _ _ hstep => hstep.effect.days_prefix
  · intro day hmem
    obtain ⟨setting, version, stored, hnumbered, -⟩ := howned.numbered day hmem
    exact ⟨setting, version, stored, hnumbered⟩
  · intro day _ other _ setting version stored hnumbered hother hnumber
    exact hnumbered.date_eq hother hnumber

/-! ## Two versions in a row -/

def schemeVersion (id : Nat) : RoadmapVersion :=
  { sampleVersion 60 with
    id := id, versionNumber := id, state := .approved, activatedAt := none }

def schemeNodes (id : Nat) : List CurriculumNode :=
  [⟨2 * id, 1, id, "node:w1-d1-sql", some (2 * id + 1), 1, .task, "Write one query.", none, none⟩,
    ⟨2 * id + 1, 1, id, "m1-w1-d01", none, 1, .day, "Day 1", none, none⟩]

def schemeTask (id : Nat) : TaskDefinitionRow :=
  { ActivityService.sampleDefinition with
    id := id, roadmapVersionId := id, curriculumNodeId := 2 * id }

def emptyCalendar : Calendar where
  toDb := { ActivityService.sampleStore with definitions := [] }
  settings := []
  versions := []
  nodes := []
  interviews := []
  exitReviews := []

def dateEnv (date : Date) : Env :=
  { sampleEnv with zone := fun _ => some ⟨fun _ => date, fun date => seconds (date * 86400)⟩ }

def firstActive : Calendar :=
  (activateVersion (dateEnv 739866)
    (withVersion emptyCalendar (schemeVersion 1) (schemeNodes 1) [schemeTask 1]) 1 1
    (some "Etc/UTC")).2

def firstPlanned : Calendar :=
  (ensureCurrentDay (dateEnv 739866) firstActive 1).2

def secondActive : Calendar :=
  (activateVersion (dateEnv 739866)
    (withVersion firstPlanned (schemeVersion 2) (schemeNodes 2) [schemeTask 2]) 1 2 none).2

def secondPlanned : Calendar :=
  (ensureCurrentDay (dateEnv 739867) secondActive 1).2

theorem approved_first :
    Approved emptyCalendar (schemeVersion 1) (schemeNodes 1) [schemeTask 1] := by
  constructor
  case scheme => exact ⟨_, rfl, by decide⟩
  all_goals decide

theorem approved_second :
    Approved firstPlanned (schemeVersion 2) (schemeNodes 2) [schemeTask 2] := by
  constructor
  case scheme => exact ⟨_, rfl, by decide⟩
  all_goals decide

/-- The second version starts on the day after the one that the first planned. -/
theorem versions_own_stretches_sample :
    ∃ trace, Run Step emptyCalendar trace secondPlanned ∧ activations 1 trace = [1, 2] ∧
      (secondPlanned.days.rows.map fun day => (day.roadmapVersionId, day.localDate)) =
        [(1, 739866), (2, 739867)] ∧
      (∀ ownerId, (activations ownerId trace).Pairwise (Before secondPlanned ownerId)) ∧
      ∀ day ∈ secondPlanned.days.rows, ∃ setting version stored,
        Numbered secondPlanned day setting version stored := by
  have hempty : Empty emptyCalendar := ⟨rfl, rfl, rfl, rfl⟩
  have hrun := ((((Run.single (Step.approved approved_first)).snoc
    (Step.activated _ (dateEnv 739866) 1 1 (some "Etc/UTC"))).snoc
    (Step.ensured _ (dateEnv 739866) 1)).snoc (Step.approved approved_second)).snoc
    (Step.activated _ (dateEnv 739866) 1 2 none)
  have hrun := hrun.snoc (Step.ensured _ (dateEnv 739867) 1)
  obtain ⟨-, -, hordered, hnumbered, -⟩ := versions_own_stretches hempty hrun
  exact ⟨_, hrun, by decide +kernel, by decide +kernel, hordered, hnumbered⟩

end TamForge.Roadmaps
