import TamForge.Roadmaps.Proofs.Calendar

/-!
# Versions own disjoint stretches of the calendar

A version owns the dates from its first day on, until the next one takes over.
The invariant says who is active, that every planned day counts from the first
day of its version, and that the active version starts after everything that
other versions planned.
-/

namespace TamForge.Roadmaps

open Learning Learning.StudyDayService Models ProofSupport
open Learning.ActivityService (StudyDayRow ActivityRow)

/-! ## The scheme day of a task -/

def InSchemeDay (calendar : Calendar) (definition : TaskDefinitionRow) (number : Nat) : Prop :=
  ∃ task ∈ calendar.nodes, ∃ day ∈ calendar.nodes,
    task.ownerId = definition.ownerId ∧ task.roadmapVersionId = definition.roadmapVersionId ∧
    task.id = definition.curriculumNodeId ∧ day.ownerId = task.ownerId ∧
    day.roadmapVersionId = task.roadmapVersionId ∧ some day.id = task.parentId ∧
    day.kind = .day ∧ day.ordinal = number

variable {definition : TaskDefinitionRow}

theorem inSchemeDay_of_taskNode {calendar : Calendar} {number : Nat} {node : CurriculumNode}
    (h : taskNode? calendar number definition = some node) :
    InSchemeDay calendar definition number := by
  simp only [taskNode?, Option.bind_eq_bind, Option.bind_eq_some_iff] at h
  obtain ⟨task, htask, day, hday, h⟩ := h
  split at h
  · rename_i hkind
    have htaskKey := List.find?_some htask
    have hdayKey := List.find?_some hday
    simp only [decide_eq_true_eq] at htaskKey hdayKey
    exact ⟨task, List.mem_of_find?_eq_some htask, day, List.mem_of_find?_eq_some hday,
      htaskKey.1, htaskKey.2.1, htaskKey.2.2, hdayKey.1, hdayKey.2.1, hdayKey.2.2, hkind⟩
  · cases h

/-- What `_definitions` selects. -/
theorem mem_definitionsOf {calendar : Calendar} {ownerId versionId number ordinal : Nat}
    (h : (definition, ordinal) ∈ definitionsOf calendar ownerId versionId number) :
    definition ∈ calendar.definitions ∧ definition.ownerId = ownerId ∧
      definition.roadmapVersionId = versionId ∧ InSchemeDay calendar definition number := by
  unfold definitionsOf at h
  rw [List.mem_insertionSort] at h
  obtain ⟨found, hf, hpaired⟩ := List.mem_filterMap.mp h
  obtain ⟨hmem, hkey⟩ := List.mem_filter.mp hf
  simp only [decide_eq_true_eq] at hkey
  obtain ⟨node, hnode, heq⟩ := Option.map_eq_some_iff.mp hpaired
  cases heq
  exact ⟨hmem, hkey.1, hkey.2, inSchemeDay_of_taskNode hnode⟩

/-! ## Days that count from the anchor of their version -/

/-- The day was planned under the version, on a study date from its anchor on,
and its tasks are those of the scheme day that the count of study dates gives. -/
structure Numbered (calendar : Calendar) (day : StudyDayRow) (setting : LearnerSetting)
    (version : RoadmapVersion) (stored : StoredScheme) : Prop where
  setting_mem : setting ∈ calendar.settings
  setting_owner : setting.ownerId = day.ownerId
  version_mem : version ∈ calendar.versions
  version_owner : version.ownerId = day.ownerId
  version_id : version.id = day.roadmapVersionId
  scheme : version.scheme = some stored
  from_anchor : studyAnchor setting.studyStartDate (some version) ≤ day.localDate
  study : isStudyDate stored.restWeekdays day.localDate = true
  tasks : ∀ activity ∈ calendar.activities.rows, activity.studyDayId = day.id →
    ∃ definition ∈ calendar.definitions, definition.id = activity.taskDefinitionId ∧
      definition.ownerId = version.ownerId ∧ definition.roadmapVersionId = version.id ∧
      InSchemeDay calendar definition (studyDates stored.restWeekdays
        (studyAnchor setting.studyStartDate (some version)) day.localDate)

def Started (version : RoadmapVersion) : Prop :=
  version.state = .active ∨ version.state = .superseded

/-- What a planned day rests on is still there. -/
structure Continues (calendar after : Calendar) : Prop where
  settings : ∀ setting ∈ calendar.settings, ∃ later ∈ after.settings,
    later.ownerId = setting.ownerId ∧ later.studyStartDate = setting.studyStartDate
  versions : ∀ version ∈ calendar.versions, Started version → ∃ later ∈ after.versions,
    later.id = version.id ∧ later.ownerId = version.ownerId ∧
      later.scheme = version.scheme ∧ later.startsOn = version.startsOn ∧ Started later
  nodes : ∀ node ∈ calendar.nodes, node ∈ after.nodes
  definitions : ∀ definition ∈ calendar.definitions, definition ∈ after.definitions

variable {stored : StoredScheme}

theorem Numbered.continues {calendar after : Calendar} {day : StudyDayRow}
    {setting : LearnerSetting} {version : RoadmapVersion}
    (h : Numbered calendar day setting version stored) (hstarted : Started version)
    (hcont : Continues calendar after)
    (hacts : ∀ act ∈ after.activities.rows, act.studyDayId = day.id →
      act ∈ calendar.activities.rows)
    : ∃ setting version, Numbered after day setting version stored ∧ Started version := by
  obtain ⟨setting', hset, hsetOwn, hstart⟩ :=
    hcont.settings setting h.setting_mem
  obtain ⟨version', hver, hid, hown, hsch, hstartsOn, hstarted'⟩ :=
    hcont.versions version h.version_mem hstarted
  have hanchor : studyAnchor setting'.studyStartDate (some version') =
      studyAnchor setting.studyStartDate (some version) := by
    simp only [studyAnchor, Option.bind_some, hstart, hstartsOn]
  refine ⟨setting', version', ?_, hstarted'⟩
  constructor
  · exact hset
  · exact hsetOwn.trans h.setting_owner
  · exact hver
  · exact hown.trans h.version_owner
  · exact hid.trans h.version_id
  · exact hsch.trans h.scheme
  · rw [hanchor]
    exact h.from_anchor
  · exact h.study
  · intro act hmem hday
    obtain ⟨definition, hdefn, htask, hdefnOwn, hdefnVer, hin⟩ :=
      h.tasks act (hacts act hmem hday) hday
    obtain ⟨task, htaskMem, node, hnodeMem, hfacts⟩ := hin
    refine ⟨definition, hcont.definitions definition hdefn, htask, ?_, ?_, ?_⟩
    · rw [hdefnOwn, hown]
    · rw [hdefnVer, hid]
    · rw [hanchor]
      exact ⟨task, hcont.nodes task htaskMem, node, hcont.nodes node hnodeMem, hfacts⟩

/-! ## The invariant -/

structure Owned (calendar : Calendar) : Prop where
  versions : (calendar.versions.map fun version => version.id).Nodup
  settings : (calendar.settings.map fun setting => setting.ownerId).Nodup
  schemes : ∀ version ∈ calendar.versions,
    ∃ stored, version.scheme = some stored ∧ stored.days ≠ []
  active : ∀ version ∈ calendar.versions, version.state = .active →
    ∃ setting ∈ calendar.settings, setting.ownerId = version.ownerId ∧
      setting.activeRoadmapVersionId = some version.id
  selected : ∀ setting ∈ calendar.settings, ∃ version ∈ calendar.versions,
    version.ownerId = setting.ownerId ∧ version.state = .active ∧
      setting.activeRoadmapVersionId = some version.id
  days : calendar.days.Keyed fun day => day.id
  activity_days : ∀ activity ∈ calendar.activities.rows,
    activity.studyDayId < calendar.days.next
  numbered : ∀ day ∈ calendar.days.rows, ∃ setting version stored,
    Numbered calendar day setting version stored ∧ Started version
  before : ∀ setting ∈ calendar.settings, ∀ version ∈ calendar.versions,
    version.ownerId = setting.ownerId → setting.activeRoadmapVersionId = some version.id →
    ∀ day ∈ calendar.days.rows, day.ownerId = setting.ownerId →
      day.roadmapVersionId ≠ version.id →
        day.localDate < studyAnchor setting.studyStartDate (some version)

section Unique

variable {calendar : Calendar} (h : Owned calendar)

include h

theorem Owned.version_eq {version other : RoadmapVersion} (hver : version ∈ calendar.versions)
    (ho : other ∈ calendar.versions) (hid : version.id = other.id) : version = other :=
  List.inj_on_of_nodup_map h.versions hver ho hid

theorem Owned.setting_eq {setting other : LearnerSetting} (hset : setting ∈ calendar.settings)
    (ho : other ∈ calendar.settings) (hown : setting.ownerId = other.ownerId) :
    setting = other :=
  List.inj_on_of_nodup_map h.settings hset ho hown

theorem Owned.active_eq {version other : RoadmapVersion} (hver : version ∈ calendar.versions)
    (ho : other ∈ calendar.versions) (hown : version.ownerId = other.ownerId)
    (hact : version.state = .active) (hact' : other.state = .active) :
    version = other := by
  obtain ⟨setting, hset, hsetOwn, hsel⟩ := h.active version hver hact
  obtain ⟨setting', hset', hsetOwn', hsel'⟩ := h.active other ho hact'
  have hsame : setting = setting' :=
    h.setting_eq hset hset' (by rw [hsetOwn, hsetOwn', hown])
  rw [hsame, hsel'] at hsel
  exact h.version_eq hver ho (Option.some.inj hsel).symm

end Unique

theorem owned_of_empty {calendar : Calendar} (h : Empty calendar) : Owned calendar := by
  have hrows : ∀ {α : Type}, (Serial.empty : Serial α).rows = [] := rfl
  constructor
  · simp [h.versions]
  · simp [h.settings]
  · simp [h.versions]
  · simp [h.versions]
  · simp [h.settings]
  · rw [h.days]
    exact Serial.keyed_empty _
  · simp [h.activities, hrows]
  · simp [h.days, hrows]
  · simp [h.settings]

/-! ## One effect -/

section Quiet

variable {calendar after : Calendar}

theorem continues_quiet (hsets : after.settings = calendar.settings)
    (hvers : after.versions = calendar.versions) (hnodes : after.nodes = calendar.nodes)
    (hstore : after.toDb = calendar.toDb) : Continues calendar after := by
  constructor
  · intro setting hmem
    exact ⟨setting, hsets ▸ hmem, rfl, rfl⟩
  · intro version hmem hstart
    exact ⟨version, hvers ▸ hmem, rfl, rfl, rfl, rfl, hstart⟩
  · intro node hmem
    exact hnodes ▸ hmem
  · intro definition hmem
    rw [hstore]
    exact hmem

theorem Owned.quiet (h : Owned calendar) (hsets : after.settings = calendar.settings)
    (hvers : after.versions = calendar.versions) (hnodes : after.nodes = calendar.nodes)
    (hstore : after.toDb = calendar.toDb) : Owned after := by
  have hcont := continues_quiet hsets hvers hnodes hstore
  constructor
  · rw [hvers]
    exact h.versions
  · rw [hsets]
    exact h.settings
  · rw [hvers]
    exact h.schemes
  · rw [hvers, hsets]
    exact h.active
  · rw [hvers, hsets]
    exact h.selected
  · rw [hstore]
    exact h.days
  · rw [hstore]
    exact h.activity_days
  · rw [hstore]
    intro day hmem
    obtain ⟨setting, version, stored, hnumd, hstart⟩ := h.numbered day hmem
    obtain ⟨setting', version', hnumd', hstart'⟩ := hnumd.continues hstart hcont
      fun act hact _ => by rwa [hstore] at hact
    exact ⟨setting', version', stored, hnumd', hstart'⟩
  · rw [hvers, hsets, hstore]
    exact h.before

end Quiet

section Approving

variable {calendar : Calendar} {version : RoadmapVersion} {nodes : List CurriculumNode}
  {definitions : List TaskDefinitionRow}

theorem continues_approved :
    Continues calendar (withVersion calendar version nodes definitions) := by
  constructor
  · intro setting hmem
    exact ⟨setting, hmem, rfl, rfl⟩
  · intro other hmem hstart
    exact ⟨other, List.mem_append_left _ hmem, rfl, rfl, rfl, rfl, hstart⟩
  · intro node hmem
    exact List.mem_append_left _ hmem
  · intro definition hmem
    exact List.mem_append_left _ hmem

theorem Owned.approve (h : Owned calendar)
    (happr : Approved calendar version nodes definitions) :
    Owned (withVersion calendar version nodes definitions) := by
  have hcases : ∀ other ∈ (withVersion calendar version nodes definitions).versions,
      other ∈ calendar.versions ∨ other = version := by
    intro other hmem
    rcases List.mem_append.mp hmem with hold | hnew
    · exact Or.inl hold
    · exact Or.inr (List.mem_singleton.mp hnew)
  constructor
  · show ((calendar.versions ++ [version]).map fun version => version.id).Nodup
    rw [List.map_append, List.nodup_append]
    refine ⟨h.versions, List.nodup_singleton _, ?_⟩
    intro id hid other ho heq
    obtain ⟨old, hold, rfl⟩ := List.mem_map.mp hid
    rw [List.map_cons, List.map_nil, List.mem_singleton] at ho
    exact happr.fresh old hold (heq.trans ho)
  · exact h.settings
  · intro other hmem
    rcases hcases other hmem with hold | rfl
    · exact h.schemes other hold
    · exact happr.scheme
  · intro other hmem hactive
    rcases hcases other hmem with hold | rfl
    · exact h.active other hold hactive
    · rw [happr.state] at hactive
      cases hactive
  · intro setting hmem
    obtain ⟨other, ho, hfacts⟩ := h.selected setting hmem
    exact ⟨other, List.mem_append_left _ ho, hfacts⟩
  · exact h.days
  · exact h.activity_days
  · intro day hmem
    obtain ⟨setting, other, stored, hnumd, hstart⟩ := h.numbered day hmem
    obtain ⟨setting', other', hnumd', hstart'⟩ :=
      hnumd.continues hstart continues_approved fun act hact _ => hact
    exact ⟨setting', other', stored, hnumd', hstart'⟩
  · intro setting hset other hmem hown hsel
    rcases hcases other hmem with hold | rfl
    · exact h.before setting hset other hold hown hsel
    · -- The selected version was there before, so it is not the new one.
      obtain ⟨active, hactive, -, -, hsel'⟩ := h.selected setting hset
      rw [hsel] at hsel'
      exact absurd (Option.some.inj hsel').symm (happr.fresh active hactive)

end Approving

section Activating

variable {env : Env} {calendar after : Calendar} {ownerId versionId : Nat}
  {target activated : RoadmapVersion} {startsOn : Option Date}
  {settings : List LearnerSetting}

theorem setting?_some {setting : LearnerSetting}
    (h : calendar.setting? ownerId = some setting) :
    setting ∈ calendar.settings ∧ setting.ownerId = ownerId := by
  have hkey := List.find?_some h
  simp only [decide_eq_true_eq] at hkey
  exact ⟨List.mem_of_find?_eq_some h, hkey⟩

theorem setting?_none (h : calendar.setting? ownerId = none) :
    ∀ setting ∈ calendar.settings, setting.ownerId ≠ ownerId := by
  intro setting hmem hown
  have hnone := List.find?_eq_none.mp h setting hmem
  simp [hown] at hnone

theorem activeVersion?_some {version : RoadmapVersion}
    (h : activeVersion? calendar ownerId = some version) :
    version ∈ calendar.versions ∧ version.ownerId = ownerId ∧ version.state = .active := by
  have hkey := List.find?_some h
  simp only [decide_eq_true_eq] at hkey
  exact ⟨List.mem_of_find?_eq_some h, hkey⟩

theorem le_lastPlannedDate {day : StudyDayRow} (hmem : day ∈ calendar.days.rows)
    (hown : day.ownerId = ownerId) :
    ∃ last, lastPlannedDate calendar ownerId = some last ∧ day.localDate ≤ last := by
  have hdate : day.localDate ∈ (calendar.days.rows.filter fun day =>
      day.ownerId = ownerId).map fun day => day.localDate :=
    List.mem_map.mpr ⟨day, List.mem_filter.mpr ⟨hmem, by simpa using hown⟩, rfl⟩
  cases hlast : lastPlannedDate calendar ownerId with
  | none =>
    have hnil := List.max?_eq_none_iff.mp hlast
    rw [hnil] at hdate
    cases hdate
  | some last =>
    have hle := (List.max?_le_iff hlast).mp (Nat.le_refl last)
    exact ⟨last, rfl, hle _ hdate⟩

inductive HandedOver (calendar : Calendar) (ownerId : Nat) (activated : RoadmapVersion)
    (now : Instant) (version : RoadmapVersion) : RoadmapVersion → Prop
  | target (same : version.id = activated.id) :
      HandedOver calendar ownerId activated now version activated
  | superseded (differs : version.id ≠ activated.id)
      (was_active : ∃ active, activeVersion? calendar ownerId = some active ∧
        active.id = version.id) :
      HandedOver calendar ownerId activated now version (supersede version now)
  | kept (differs : version.id ≠ activated.id)
      (not_active : ∀ active, activeVersion? calendar ownerId = some active →
        active.id ≠ version.id) :
      HandedOver calendar ownerId activated now version version

theorem handedOver_row (calendar : Calendar) (ownerId : Nat) (activated version : RoadmapVersion)
    (now : Instant) :
    HandedOver calendar ownerId activated now version
      (if version.id = activated.id then activated
        else if (activeVersion? calendar ownerId).any (fun found => found.id == version.id)
          then supersede version now
        else version) := by
  split
  · rename_i hsame
    exact .target hsame
  · rename_i hdiffers
    split
    · rename_i hact
      obtain ⟨active, hf, hid⟩ := (Option.any_eq_true _ _).mp hact
      exact .superseded hdiffers ⟨active, hf, by simpa using hid⟩
    · rename_i hact
      refine .kept hdiffers fun active hf hid => hact ?_
      rw [hf]
      simpa using hid

variable {now : Instant} {later : RoadmapVersion}

theorem mem_handedOver (h : later ∈ handedOver calendar ownerId activated now) :
    ∃ version ∈ calendar.versions, HandedOver calendar ownerId activated now version later := by
  obtain ⟨version, hmem, rfl⟩ := List.mem_map.mp h
  exact ⟨version, hmem, handedOver_row _ _ _ _ _⟩

theorem exists_handedOver {version : RoadmapVersion} (h : version ∈ calendar.versions) :
    ∃ later ∈ handedOver calendar ownerId activated now,
      HandedOver calendar ownerId activated now version later :=
  ⟨_, List.mem_map.mpr ⟨version, h, rfl⟩, handedOver_row _ _ _ _ _⟩

theorem HandedOver.id_eq {version : RoadmapVersion}
    (h : HandedOver calendar ownerId activated now version later) : later.id = version.id := by
  cases h with
  | target same => exact same.symm
  | superseded => rfl
  | kept => rfl

theorem handedOver_ids (now : Instant) :
    (handedOver calendar ownerId activated now).map (fun version => version.id) =
      calendar.versions.map fun version => version.id := by
  unfold handedOver
  rw [List.map_map]
  apply List.map_congr_left
  intro version _
  exact (handedOver_row calendar ownerId activated version now).id_eq

theorem Selected.cases_mem (h : Selected env calendar ownerId target settings startsOn)
    {setting : LearnerSetting} (hmem : setting ∈ settings) :
    (setting.ownerId = ownerId ∧ setting.activeRoadmapVersionId = some target.id) ∨
      (setting.ownerId ≠ ownerId ∧ setting ∈ calendar.settings) := by
  cases h with
  | first none_yet =>
    rcases List.mem_append.mp hmem with hold | hnew
    · exact Or.inr ⟨setting?_none none_yet setting hold, hold⟩
    · rw [List.mem_singleton.mp hnew]
      exact Or.inl ⟨rfl, rfl⟩
  | later setting_eq open_date =>
    obtain ⟨old, hold, heq⟩ := List.mem_map.mp hmem
    by_cases hown : old.ownerId = ownerId
    · rw [if_pos hown] at heq
      rw [← heq]
      exact Or.inl ⟨(setting?_some setting_eq).2, rfl⟩
    · rw [if_neg hown] at heq
      rw [← heq]
      exact Or.inr ⟨hown, hold⟩

theorem Selected.mem_of_ne (h : Selected env calendar ownerId target settings startsOn)
    {setting : LearnerSetting} (hmem : setting ∈ calendar.settings)
    (hne : setting.ownerId ≠ ownerId) : setting ∈ settings := by
  cases h with
  | first none_yet => exact List.mem_append_left _ hmem
  | later setting_eq open_date => exact List.mem_map.mpr ⟨setting, hmem, if_neg hne⟩

theorem Selected.own (h : Selected env calendar ownerId target settings startsOn) :
    ∃ setting ∈ settings, setting.ownerId = ownerId ∧
      setting.activeRoadmapVersionId = some target.id := by
  cases h with
  | first none_yet =>
    exact ⟨_, List.mem_append_right _ (List.mem_singleton.mpr rfl), rfl, rfl⟩
  | later setting_eq open_date =>
    obtain ⟨hmem, hown⟩ := setting?_some setting_eq
    exact ⟨_, List.mem_map.mpr ⟨_, hmem, if_pos hown⟩, hown, rfl⟩

theorem Selected.continues (howned : Owned calendar)
    (h : Selected env calendar ownerId target settings startsOn) :
    ∀ setting ∈ calendar.settings, ∃ later ∈ settings,
      later.ownerId = setting.ownerId ∧ later.studyStartDate = setting.studyStartDate := by
  intro setting hmem
  by_cases hown : setting.ownerId = ownerId
  · cases h with
    | first none_yet => exact absurd hown (setting?_none none_yet setting hmem)
    | later setting_eq open_date =>
      obtain ⟨hf, hfoundOwn⟩ := setting?_some setting_eq
      obtain rfl := howned.setting_eq hmem hf (hown.trans hfoundOwn.symm)
      exact ⟨_, List.mem_map.mpr ⟨_, hmem, if_pos hown⟩, rfl, rfl⟩
  · exact ⟨setting, h.mem_of_ne hmem hown, rfl, rfl⟩

theorem Selected.owners_nodup (howned : Owned calendar)
    (h : Selected env calendar ownerId target settings startsOn) :
    (settings.map fun setting => setting.ownerId).Nodup := by
  cases h with
  | first none_yet =>
    rw [List.map_append, List.nodup_append]
    refine ⟨howned.settings, List.nodup_singleton _, ?_⟩
    intro owner hown other ho heq
    obtain ⟨setting, hmem, rfl⟩ := List.mem_map.mp hown
    rw [List.map_cons, List.map_nil, List.mem_singleton] at ho
    exact setting?_none none_yet setting hmem (heq.trans ho)
  | later setting_eq open_date =>
    have hsame : ∀ changed : LearnerSetting, changed.ownerId = ownerId →
        (calendar.settings.map fun other => if other.ownerId = ownerId then changed
          else other).map (fun setting => setting.ownerId) =
            calendar.settings.map fun setting => setting.ownerId := by
      intro changed hchanged
      rw [List.map_map]
      apply List.map_congr_left
      intro other _
      by_cases hown : other.ownerId = ownerId
      · simp only [Function.comp_apply, if_pos hown]
        exact hchanged.trans hown.symm
      · simp only [Function.comp_apply, if_neg hown]
    rw [hsame]
    · exact howned.settings
    · exact (setting?_some setting_eq).2

theorem Selected.starts_after (howned : Owned calendar) (htgt : target ∈ calendar.versions)
    (h : Selected env calendar ownerId target settings startsOn)
    {setting : LearnerSetting} (hstarts : activated.startsOn = startsOn) {day : StudyDayRow}
    (hmem : day ∈ calendar.days.rows) (hown : day.ownerId = ownerId) :
    day.localDate < studyAnchor setting.studyStartDate (some activated) := by
  obtain ⟨planned, version, stored, hnumd, -⟩ := howned.numbered day hmem
  have hplan : planned.ownerId = ownerId := hnumd.setting_owner.trans hown
  cases h with
  | first none_yet => exact absurd hplan (setting?_none none_yet planned hnumd.setting_mem)
  | later setting_eq open_date =>
    -- A learner with settings has an active version, and every version a scheme.
    obtain ⟨active, hact, hactOwn, hactSt, -⟩ :=
      howned.selected planned hnumd.setting_mem
    have hsome : activeVersion? calendar ownerId ≠ none := by
      intro hnone
      have hmis := List.find?_eq_none.mp hnone active hact
      simp [hactOwn, hplan, hactSt] at hmis
    obtain ⟨targetScheme, hsch, -⟩ := howned.schemes target htgt
    obtain ⟨today, rest, date, hdate, hstartsOn⟩ :=
      open_date hsome (by rw [hsch]; exact Option.some_ne_none _)
    obtain ⟨last, hlast, hle⟩ := le_lastPlannedDate hmem hown
    have hlt := (firstOpenStudyDate_ok hdate).2.1 last hlast
    simp only [studyAnchor, Option.bind_some, hstarts, hstartsOn, Option.getD_some]
    exact Nat.lt_of_le_of_lt hle hlt

theorem target_not_started (h : Owned calendar)
    (hactd : Activated env calendar ownerId versionId target startsOn settings after)
    {version : RoadmapVersion} (hmem : version ∈ calendar.versions)
    (hstart : Started version) : version.id ≠ target.id := by
  intro hid
  rw [h.version_eq hmem hactd.target_mem hid, Started, hactd.target_state] at hstart
  rcases hstart with hact | hsuperseded <;> contradiction

theorem continues_activated (h : Owned calendar)
    (hactd : Activated env calendar ownerId versionId target startsOn settings after) :
    Continues calendar after := by
  rw [hactd.after_eq]
  constructor
  · exact hactd.selected.continues h
  · intro version hmem hver
    obtain ⟨later, hlat, hover⟩ := exists_handedOver hmem
    refine ⟨later, hlat, hover.id_eq, ?_⟩
    cases hover with
    | target same => exact absurd same (target_not_started h hactd hmem hver)
    | superseded => exact ⟨rfl, rfl, rfl, Or.inr rfl⟩
    | kept => exact ⟨rfl, rfl, rfl, hver⟩
  · exact fun node hmem => hmem
  · exact fun definition hmem => hmem

theorem Owned.activate (h : Owned calendar)
    (hactd : Activated env calendar ownerId versionId target startsOn settings after) :
    Owned after := by
  have hcont := continues_activated h hactd
  obtain ⟨htgt, howner, -, happr, hsel, rfl⟩ := hactd
  -- The versions of other learners stay as they are.
  have hfar : ∀ version ∈ calendar.versions, version.ownerId ≠ ownerId →
      ∀ later, HandedOver calendar ownerId
        { target with activatedAt := some env.now, state := .active, startsOn := startsOn }
        env.now version later → later = version := by
    intro version hmem hne later hlat
    cases hlat with
    | target same =>
      rw [h.version_eq hmem htgt same] at hne
      exact absurd howner hne
    | superseded differs was_active =>
      obtain ⟨active, hactive, hid⟩ := was_active
      obtain ⟨hactMem, hactOwn, -⟩ := activeVersion?_some hactive
      rw [h.version_eq hactMem hmem hid] at hactOwn
      exact absurd hactOwn hne
    | kept => rfl
  have hself : { target with activatedAt := some env.now, state := .active, startsOn := startsOn }
      ∈ handedOver calendar ownerId { target with
        activatedAt := some env.now, state := .active, startsOn := startsOn } env.now :=
    List.mem_map.mpr ⟨target, htgt, if_pos rfl⟩
  constructor
  · show ((handedOver calendar ownerId _ env.now).map fun version => version.id).Nodup
    rw [handedOver_ids]
    exact h.versions
  · exact hsel.owners_nodup h
  · intro later hmem
    obtain ⟨version, hver, hover⟩ := mem_handedOver hmem
    cases hover with
    | target same => exact h.schemes target htgt
    | superseded => exact h.schemes version hver
    | kept => exact h.schemes later hver
  · intro later hmem hactive
    obtain ⟨version, hver, hover⟩ := mem_handedOver hmem
    cases hover with
    | target same =>
      obtain ⟨setting, hset, hsetOwn, hid⟩ := hsel.own
      exact ⟨setting, hset, hsetOwn.trans howner.symm, hid⟩
    | superseded => cases hactive
    | kept differs not_active =>
      obtain ⟨setting, hset, hsetOwn, hid⟩ := h.active later hver hactive
      by_cases hown : later.ownerId = ownerId
      · -- The only active version of the learner was superseded.
        have hsome : (calendar.versions.find? fun version =>
            version.ownerId = ownerId ∧ version.state = .active).isSome = true :=
          List.find?_isSome.mpr ⟨later, hver, by simp [hown, hactive]⟩
        obtain ⟨active, hf⟩ := Option.isSome_iff_exists.mp hsome
        obtain ⟨hmemAct, hownAct, hstAct⟩ := activeVersion?_some hf
        have hsame := h.active_eq hmemAct hver (hownAct.trans hown.symm)
          hstAct hactive
        exact absurd (congrArg RoadmapVersion.id hsame) (not_active active hf)
      · exact ⟨setting, hsel.mem_of_ne hset (hsetOwn ▸ hown), hsetOwn, hid⟩
  · intro setting hmem
    rcases hsel.cases_mem hmem with ⟨hsetOwn, hid⟩ | ⟨hne, hold⟩
    · exact ⟨_, hself, howner.trans hsetOwn.symm, rfl, hid⟩
    · obtain ⟨version, hver, hverOwn, hst, hid⟩ := h.selected setting hold
      obtain ⟨later, hlat, hover⟩ := exists_handedOver hver
      obtain rfl := hfar version hver (hverOwn ▸ hne) later hover
      exact ⟨later, hlat, hverOwn, hst, hid⟩
  · exact h.days
  · exact h.activity_days
  · intro day hmem
    obtain ⟨setting, version, stored, hnumd, hver⟩ := h.numbered day hmem
    obtain ⟨setting', version', hnumd', hver'⟩ :=
      hnumd.continues hver hcont fun act hact _ => hact
    exact ⟨setting', version', stored, hnumd', hver'⟩
  · intro setting hmem later hlat hlatOwn hid day hday hdayOwn hdiffers
    obtain ⟨version, hver, hover⟩ := mem_handedOver hlat
    rcases hsel.cases_mem hmem with ⟨hsetOwn, hown⟩ | ⟨hne, hold⟩
    · -- The settings name the target now.
      rw [hid] at hown
      have hsame : version.id = target.id := hover.id_eq.symm.trans (Option.some.inj hown)
      cases hover with
      | target same =>
        exact hsel.starts_after h htgt rfl hday (hdayOwn.trans hsetOwn)
      | superseded differs => exact absurd hsame differs
      | kept differs => exact absurd hsame differs
    · have hverOwn : version.ownerId ≠ ownerId := by
        intro hown
        cases hover with
        | target same =>
          have hclash : target.ownerId = setting.ownerId := hlatOwn
          exact hne (hclash.symm.trans howner)
        | superseded => exact hne (hlatOwn.symm.trans hown)
        | kept => exact hne (hlatOwn.symm.trans hown)
      obtain rfl := hfar version hver hverOwn later hover
      exact h.before setting hold later hver hlatOwn hid day hday hdayOwn hdiffers

end Activating

section Creating

variable {env : Env} {calendar after : Calendar} {ownerId number : Nat}
  {setting : LearnerSetting} {found : Scheduled} {version : RoadmapVersion} {plan : DayPlan}
  {definitions : List TaskDefinitionRow} {day : StudyDayRow} {activities : List ActivityRow}

theorem schemeForVersion_some {scheme : SchemeInfo}
    (h : schemeForVersion (some stored) = .ok scheme) (hdays : stored.days ≠ []) :
    scheme.isLegacy = false ∧ scheme.restWeekdays = stored.restWeekdays := by
  simp only [schemeForVersion, bind_ok_iff] at h
  obtain ⟨budgets, hbudgets, hsch⟩ := h
  cases hsch
  refine ⟨?_, rfl⟩
  have hlen := (mapM_ok_iff.mp hbudgets).length_eq
  cases budgets with
  | nil => exact absurd (List.length_eq_zero_iff.mp hlen) hdays
  | cons => rfl

theorem created_version (howned : Owned calendar)
    (h : Created env calendar ownerId setting found number version plan definitions day
      activities after) :
    setting ∈ calendar.settings ∧ setting.ownerId = day.ownerId ∧
      version ∈ calendar.versions ∧ version.ownerId = day.ownerId ∧
      version.id = day.roadmapVersionId ∧
      setting.activeRoadmapVersionId = some version.id ∧
      ∃ stored, version.scheme = some stored ∧
        studyAnchor setting.studyStartDate (some version) ≤ day.localDate ∧
        isStudyDate stored.restWeekdays day.localDate = true ∧
        number = studyDates stored.restWeekdays
          (studyAnchor setting.studyStartDate (some version)) day.localDate := by
  obtain ⟨hset, hsetOwn⟩ := setting?_some h.setting_eq
  obtain ⟨hver, hsch, hnum⟩ := scheduled_ok h.scheduled_eq
  rw [h.plan_from.version_eq] at hver hsch hnum
  obtain ⟨versionId, hsel, hf⟩ := Option.bind_eq_some_iff.mp hver.symm
  have hmem := List.mem_of_find?_eq_some hf
  have hkey := List.find?_some hf
  simp only [decide_eq_true_eq] at hkey
  obtain ⟨stored, hsto, hdays⟩ := howned.schemes version hmem
  simp only [Option.bind_some, hsto] at hsch
  obtain ⟨hlegacy, hrest⟩ := schemeForVersion_some hsch hdays
  have hday := hnum number h.plan_from.number_eq
  simp only [SchemeInfo.dayNumber, hlegacy, hrest] at hday
  obtain ⟨hfrom, hstudy, hcnt⟩ := studyDayNumber_ok hday
  have hdate : day.localDate = found.localDate :=
    h.written.day_date.trans h.plan_from.date_eq
  have hown : setting.ownerId = day.ownerId :=
    (h.written.day_owner.trans hkey.1).symm
  refine ⟨hset, hown, hmem, h.written.day_owner.symm, h.written.day_version.symm, ?_,
    stored, hsto, ?_, ?_, ?_⟩
  · rw [hsel, hkey.2]
  · rw [hdate]
    exact hfrom
  · rw [hdate]
    exact hstudy
  · rw [hdate]
    exact hcnt

theorem continues_created
    (h : Created env calendar ownerId setting found number version plan definitions day
      activities after) : Continues calendar after := by
  rw [h.written.after_eq]
  constructor
  · exact fun setting hmem => ⟨setting, hmem, rfl, rfl⟩
  · exact fun version hmem hstart => ⟨version, hmem, rfl, rfl, rfl, rfl, hstart⟩
  · exact fun node hmem => hmem
  · exact fun definition hmem => hmem

theorem Owned.create (h : Owned calendar)
    (hcrt : Created env calendar ownerId setting found number version plan definitions day
      activities after) : Owned after := by
  obtain ⟨hset, hsetOwn, hver, hverOwn, hverId, hsel, stored,
    hsto, hfrom, hstudy, hnum⟩ := created_version h hcrt
  have hplan := hcrt.written.planned
  have hactive := hcrt.plan_from.active
  have hbelongs := hcrt.plan_from.belongs
  have htasks := hcrt.written.tasks
  have hactVer := hcrt.written.activity_version
  have hplanSet : setting.ownerId = version.ownerId := hsetOwn.trans hverOwn.symm
  have hcont := continues_created hcrt
  obtain rfl := hcrt.written.after_eq
  constructor
  · exact h.versions
  · exact h.settings
  · exact h.schemes
  · exact h.active
  · exact h.selected
  · exact h.days.append hplan.day_id
  · intro act hmem
    show act.studyDayId < calendar.days.next + 1
    rcases List.mem_append.mp hmem with hold | hnew
    · exact Nat.lt_succ_of_lt (h.activity_days act hold)
    · rw [hplan.activity_day act hnew, hplan.day_id]
      exact Nat.lt_succ_self _
  · intro other hmem
    rcases List.mem_append.mp hmem with hold | hnew
    · -- The new activities belong to the new day.
      obtain ⟨setting', version', stored', hnumd, hstart⟩ := h.numbered other hold
      obtain ⟨setting'', version'', hnumd', hstart'⟩ :=
        hnumd.continues hstart hcont fun act hact hday => by
          rcases List.mem_append.mp hact with hkept | hadded
          · exact hkept
          · have hlt := h.days.lt other hold
            have hid := hplan.activity_day act hadded
            have hnext := hplan.day_id
            omega
      exact ⟨setting'', version'', stored', hnumd', hstart'⟩
    · rw [List.mem_singleton.mp hnew]
      refine ⟨setting, version, stored, ?_, Or.inl hactive⟩
      constructor
      · exact hset
      · exact hsetOwn
      · exact hver
      · exact hverOwn
      · exact hverId
      · exact hsto
      · exact hfrom
      · exact hstudy
      · intro act hact hday
        rcases List.mem_append.mp hact with hold | hadded
        · have hlt := h.activity_days act hold
          have hnext := hplan.day_id
          have hclash : act.studyDayId = day.id := hday
          omega
        · have htask : act.taskDefinitionId ∈
              definitions.map fun definition => definition.id := by
            rw [← htasks]
            exact List.mem_map.mpr ⟨act, hadded, rfl⟩
          obtain ⟨definition, hdefn, hid⟩ := List.mem_map.mp htask
          obtain ⟨ordinal, hlist⟩ := hbelongs definition hdefn
          obtain ⟨hmemDefn, hown, hof, hin⟩ := mem_definitionsOf hlist
          refine ⟨definition, hmemDefn, hid, hown.trans hplanSet, hof, ?_⟩
          rw [← hnum]
          exact hin
  · intro setting' hset' version' hver' hown hid other hmem hotherOwn hdiffers
    rcases List.mem_append.mp hmem with hold | hnew
    · exact h.before setting' hset' version' hver' hown hid other hold hotherOwn
        hdiffers
    · -- The new day is one of the selected version.
      rw [List.mem_singleton.mp hnew] at hotherOwn hdiffers
      have hsame : setting' = setting :=
        h.setting_eq hset' hset (hotherOwn.symm.trans hsetOwn.symm)
      rw [hsame, hsel] at hid
      exact absurd ((Option.some.inj hid).symm.trans hverId).symm hdiffers

end Creating

variable {event : Event}

theorem Owned.effect {calendar after : Calendar} (h : Owned calendar)
    (heff : Effect calendar event after) : Owned after := by
  cases heff with
  | quiet settings versions nodes store => exact h.quiet settings versions nodes store
  | approved happr => exact h.approve happr
  | activated hactd => exact h.activate hactd
  | created hcrt => exact h.create hcrt

theorem Effect.days_prefix {calendar after : Calendar} (heff : Effect calendar event after) :
    calendar.days.rows <+: after.days.rows := by
  cases heff with
  | quiet settings versions nodes store => rw [store]
  | approved happr => exact List.prefix_refl _
  | activated hactd => rw [hactd.after_eq]
  | created hcrt =>
    rw [hcrt.written.after_eq]
    exact List.prefix_append _ _

end TamForge.Roadmaps
