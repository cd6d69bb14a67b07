import TamForge.Learning.Proofs.Planning
import TamForge.Learning.Proofs.StudyDates
import TamForge.Roadmaps.Activation

/-!
# Runs of activations and planned days

A run approves scheme versions, activates them and plans days, in any order and
at any clock.  Every step leaves the calendar alone, adds a version, hands the
calendar over to one, or adds a day.
-/

namespace TamForge.Roadmaps

open Learning Learning.StudyDayService Models ProofSupport
open Learning.ActivityService (StudyDayRow ActivityRow)

/-! ## Steps -/

inductive Event
  | approved (version : RoadmapVersion) (nodes : List CurriculumNode)
      (definitions : List TaskDefinitionRow)
  | activated (ownerId versionId : Nat) (timezone : Option String)
      (outcome : Except ActivationError RoadmapVersion)
  | ensured (ownerId : Nat) (outcome : Except PlanError (Option StudyDayRecord))
  | elsewhere (interviews : List Interview) (exitReviews : List MonthExitReview)

structure Approved (calendar : Calendar) (version : RoadmapVersion)
    (nodes : List CurriculumNode) (definitions : List TaskDefinitionRow) : Prop where
  fresh : ∀ other ∈ calendar.versions, other.id ≠ version.id
  state : version.state = .approved
  starts_on : version.startsOn = none
  scheme : ∃ stored, version.scheme = some stored ∧ stored.days ≠ []
  nodes_fresh : ∀ node ∈ nodes, ∀ other ∈ calendar.nodes, other.id ≠ node.id
  definitions_fresh : ∀ definition ∈ definitions, ∀ other ∈ calendar.definitions,
    other.id ≠ definition.id
  nodes_version : ∀ node ∈ nodes, node.ownerId = version.ownerId ∧
    node.roadmapVersionId = version.id
  definitions_version : ∀ definition ∈ definitions, definition.ownerId = version.ownerId ∧
    definition.roadmapVersionId = version.id

def withVersion (calendar : Calendar) (version : RoadmapVersion) (nodes : List CurriculumNode)
    (definitions : List TaskDefinitionRow) : Calendar :=
  { calendar with
    toDb := { calendar.toDb with definitions := calendar.definitions ++ definitions },
    versions := calendar.versions ++ [version],
    nodes := calendar.nodes ++ nodes }

inductive Step : Calendar → Event → Calendar → Prop
  | approved {calendar : Calendar} {version : RoadmapVersion} {nodes : List CurriculumNode}
      {definitions : List TaskDefinitionRow} (h : Approved calendar version nodes definitions) :
      Step calendar (.approved version nodes definitions)
        (withVersion calendar version nodes definitions)
  | activated (calendar : Calendar) (env : Env) (ownerId versionId : Nat)
      (timezone : Option String) :
      Step calendar
        (.activated ownerId versionId timezone
          (activateVersion env calendar ownerId versionId timezone).1)
        (activateVersion env calendar ownerId versionId timezone).2
  | activation_refused (calendar : Calendar) (ownerId versionId : Nat)
      (timezone : Option String) :
      Step calendar (.activated ownerId versionId timezone (.error activationUnavailable))
        calendar
  | ensured (calendar : Calendar) (env : Env) (ownerId : Nat) :
      Step calendar (.ensured ownerId (ensureCurrentDay env calendar ownerId).1)
        (ensureCurrentDay env calendar ownerId).2
  | ensure_refused (calendar : Calendar) (ownerId : Nat) :
      Step calendar (.ensured ownerId (.error unavailable)) calendar
  | elsewhere (calendar : Calendar) (interviews : List Interview)
      (exitReviews : List MonthExitReview) :
      Step calendar (.elsewhere interviews exitReviews)
        { calendar with interviews := interviews, exitReviews := exitReviews }

/-- Nothing was ever stored. -/
structure Empty (calendar : Calendar) : Prop where
  settings : calendar.settings = []
  versions : calendar.versions = []
  days : calendar.days = Serial.empty
  activities : calendar.activities = Serial.empty

def Event.activation? (ownerId : Nat) : Event → Option Nat
  | .activated owner versionId _ (.ok _) => if owner = ownerId then some versionId else none
  | _ => none

def activations (ownerId : Nat) (trace : List (Transition Calendar Event)) : List Nat :=
  trace.filterMap fun step => step.label.activation? ownerId

theorem activations_snoc (ownerId : Nat) (trace : List (Transition Calendar Event))
    (step : Transition Calendar Event) :
    activations ownerId (trace ++ [step]) =
      activations ownerId trace ++ (step.label.activation? ownerId).toList := by
  unfold activations
  rw [List.filterMap_append]
  cases hlab : step.label.activation? ownerId with
  | none => simp [hlab]
  | some id => simp [hlab]

/-! ## What an activation does -/

inductive Selected (env : Env) (calendar : Calendar) (ownerId : Nat) (target : RoadmapVersion) :
    List LearnerSetting → Option Date → Prop
  | first {timezone : String} {date : Date} (none_yet : calendar.setting? ownerId = none) :
      Selected env calendar ownerId target
        (calendar.settings ++ [⟨ownerId, timezone, date, some target.id⟩]) target.startsOn
  | later {setting : LearnerSetting} {timezone : String} {startsOn : Option Date}
      (setting_eq : calendar.setting? ownerId = some setting)
      (open_date : activeVersion? calendar ownerId ≠ none → target.scheme ≠ none →
        ∃ today rest date, firstOpenStudyDate today (lastPlannedDate calendar ownerId) rest =
          .ok date ∧ startsOn = some date) :
      Selected env calendar ownerId target
        (calendar.settings.map fun other => if other.ownerId = ownerId
          then { setting with activeRoadmapVersionId := some target.id, timezone := timezone }
          else other) startsOn

variable {env : Env} {calendar : Calendar} {ownerId : Nat} {timezone : Option String}

theorem selectVersion_ok {tgt : RoadmapVersion} {settings : List LearnerSetting}
    {startsOn : Option Date}
    (h : selectVersion env calendar ownerId timezone (activeVersion? calendar ownerId) tgt =
      .ok (settings, startsOn))
    : Selected env calendar ownerId tgt settings startsOn := by
  unfold selectVersion at h
  split at h
  · rename_i hnone
    split at h
    · split at h
      · cases h
        exact .first hnone
      · cases h
    · cases h
  · rename_i setting hset
    split at h
    · dsimp only at h
      split at h
      · simp only [bind_ok_iff, mapError_ok_iff] at h
        obtain ⟨scheme, -, date, hdate, hres⟩ := h
        cases hres
        exact .later hset fun _ _ => ⟨_, _, date, hdate, rfl⟩
      · cases h
    · rename_i ho
      cases h
      refine .later hset fun hact hsch => ?_
      obtain ⟨active, hact⟩ := Option.ne_none_iff_exists'.mp hact
      obtain ⟨stored, hsto⟩ := Option.ne_none_iff_exists'.mp hsch
      exact absurd hsto (ho active stored hact)

def handedOver (calendar : Calendar) (ownerId : Nat) (activated : RoadmapVersion)
    (now : Instant) : List RoadmapVersion :=
  calendar.versions.map fun version =>
    if version.id = activated.id then activated
    else if (activeVersion? calendar ownerId).any (fun found => found.id == version.id)
      then supersede version now
    else version

structure Activated (env : Env) (calendar : Calendar) (ownerId versionId : Nat)
    (target : RoadmapVersion) (startsOn : Option Date) (settings : List LearnerSetting)
    (after : Calendar) : Prop where
  target_mem : target ∈ calendar.versions
  target_owner : target.ownerId = ownerId
  target_id : target.id = versionId
  target_state : target.state = .approved
  selected : Selected env calendar ownerId target settings startsOn
  after_eq : after = { calendar with
    versions := handedOver calendar ownerId
      { target with activatedAt := some env.now, state := .active, startsOn := startsOn } env.now,
    settings := settings }

variable {after : Calendar}

theorem activate_ok {versionId : Nat} {ver : RoadmapVersion}
    (h : activate env calendar ownerId versionId timezone = .ok (ver, after)) :
    ∃ tgt startsOn settings,
      Activated env calendar ownerId versionId tgt startsOn settings after := by
  simp only [activate, bind_ok_iff] at h
  obtain ⟨tgt, htgt, _, -, ⟨settings, startsOn⟩, hselect, hres⟩ := h
  cases hres
  unfold eligibleVersion at htgt
  split at htgt
  · rename_i found hf
    simp only [bind_ok_iff] at htgt
    obtain ⟨_, hgrd, hres⟩ := htgt
    cases hres
    have hst := raiseFirst_eq_ok.mp hgrd
    simp only [List.forall_mem_cons, bne_eq_false_iff_eq] at hst
    have hkey := List.find?_some hf
    simp only [decide_eq_true_eq] at hkey
    refine ⟨tgt, startsOn, settings, ?_⟩
    constructor
    · exact List.mem_of_find?_eq_some hf
    · exact hkey.1
    · exact hkey.2
    · exact hst.1
    · exact selectVersion_ok hselect
    · rfl
  · cases htgt

/-- Everything a step can do. -/
inductive Effect (calendar : Calendar) : Event → Calendar → Prop
  | quiet {event : Event} {after : Calendar} (settings : after.settings = calendar.settings)
      (versions : after.versions = calendar.versions) (nodes : after.nodes = calendar.nodes)
      (store : after.toDb = calendar.toDb)
      (event_quiet : ∀ ownerId, event.activation? ownerId = none) :
      Effect calendar event after
  | approved {version : RoadmapVersion} {nodes : List CurriculumNode}
      {definitions : List TaskDefinitionRow} (h : Approved calendar version nodes definitions) :
      Effect calendar (.approved version nodes definitions)
        (withVersion calendar version nodes definitions)
  | activated {env : Env} {ownerId versionId : Nat} {timezone : Option String}
      {result target : RoadmapVersion} {startsOn : Option Date}
      {settings : List LearnerSetting} {after : Calendar}
      (h : Activated env calendar ownerId versionId target startsOn settings after) :
      Effect calendar (.activated ownerId versionId timezone (.ok result)) after
  | created {env : Env} {ownerId : Nat} {setting : LearnerSetting} {found : Scheduled}
      {number : Nat} {version : RoadmapVersion} {plan : DayPlan}
      {definitions : List TaskDefinitionRow} {day : StudyDayRow}
      {activities : List ActivityRow} {outcome : Except PlanError (Option StudyDayRecord)}
      {after : Calendar} (h : Created env calendar ownerId setting found number version plan
        definitions day activities after) : Effect calendar (.ensured ownerId outcome) after

theorem Step.effect {event : Event} (h : Step calendar event after) :
    Effect calendar event after := by
  cases h with
  | approved h => exact .approved h
  | activated env ownerId versionId timezone =>
    unfold activateVersion
    split
    · rename_i version after' hactivate
      obtain ⟨tgt, startsOn, settings, hactd⟩ := activate_ok hactivate
      exact .activated hactd
    · exact .quiet rfl rfl rfl rfl fun _ => rfl
  | activation_refused => exact .quiet rfl rfl rfl rfl fun _ => rfl
  | ensured env ownerId =>
    unfold ensureCurrentDay
    split
    · rename_i day after' hensure
      rcases ensureDay_cases hensure with ⟨rfl, -⟩ | ⟨_, _, _, _, _, _, _, _, hcrt, -⟩
      · exact .quiet rfl rfl rfl rfl fun _ => rfl
      · exact .created hcrt
    · exact .quiet rfl rfl rfl rfl fun _ => rfl
  | ensure_refused => exact .quiet rfl rfl rfl rfl fun _ => rfl
  | elsewhere => exact .quiet rfl rfl rfl rfl fun _ => rfl

end TamForge.Roadmaps
