import TamForge.Learning.Repository

/-!
# Activating a version

`activate_version` of `roadmaps/repository.py`: the active version is superseded,
the target takes its place in the learner's settings, and its first day is the
first date that no planned day owns.
-/

namespace TamForge.Roadmaps

open Learning Learning.StudyDayService Models ProofSupport

/-- What activating can raise; the last two are errors of `zoneinfo` and of the
scheduler that pass through. -/
inductive ActivationError
  | notFound (message : String)
  | notEligible (message : String)
  | unavailable (message : String)
  | unknownZone
  | plan (error : PlanError)

def activationUnavailable : ActivationError :=
  .unavailable "roadmap storage is unavailable"

def lastPlannedDate (calendar : Calendar) (ownerId : Nat) : Option Date :=
  ((calendar.days.rows.filter fun day => day.ownerId = ownerId).map fun day =>
    day.localDate).max?

def monthPassed (calendar : Calendar) (ownerId monthNumber : Nat) : Bool :=
  calendar.exitReviews.any fun review => review.ownerId == ownerId && review.completed &&
    review.advance && review.activationEligible == some true &&
    calendar.versions.any fun version => version.ownerId == ownerId &&
      version.id == review.roadmapVersionId && version.monthNumber + 1 == monthNumber

def eligibleVersion (calendar : Calendar) (ownerId versionId : Nat) :
    Except ActivationError RoadmapVersion := do
  let some target := calendar.version? ownerId versionId
    | throw (.notFound "roadmap version was not found")
  raiseFirst [
    (target.state != .approved, .notEligible "roadmap version is not approved"),
    (decide (1 < target.monthNumber) && !monthPassed calendar ownerId target.monthNumber,
      .notEligible "previous month exit review is not activation eligible")]
  return target

def activeVersion? (calendar : Calendar) (ownerId : Nat) : Option RoadmapVersion :=
  calendar.versions.find? fun version => version.ownerId = ownerId ∧ version.state = .active

def supersede (version : RoadmapVersion) (now : Instant) : RoadmapVersion :=
  { version with supersededAt := some now, state := .superseded }

/-- `superseded_after_activation` and `activated_after_approval` -/
def inOrder (earlier : Option Instant) (now : Instant) : Bool :=
  earlier.all fun instant => decide (instant ≤ now)

/-- The settings after an activation, and the first date of the version where
another one was active before. -/
def selectVersion (env : Env) (calendar : Calendar) (ownerId : Nat) (timezone : Option String)
    (active : Option RoadmapVersion) (target : RoadmapVersion) :
    Except ActivationError (List LearnerSetting × Option Date) := do
  match calendar.setting? ownerId with
  | none =>
    let some name := timezone
      | throw (.notEligible "the first activation needs the learner's timezone")
    let some zone := env.zone name | throw .unknownZone
    return (calendar.settings ++ [⟨ownerId, name, zone.localDate env.now, some target.id⟩],
      target.startsOn)
  | some setting =>
    let changed : LearnerSetting :=
      { setting with
        activeRoadmapVersionId := some target.id,
        timezone := timezone.getD setting.timezone }
    let settings := calendar.settings.map fun other =>
      if other.ownerId = ownerId then changed else other
    match active, target.scheme with
    | some _, some stored =>
      let some zone := env.zone changed.timezone | throw .unknownZone
      let scheme ← (schemeForVersion (some stored)).mapError .plan
      let startsOn ← (firstOpenStudyDate (zone.localDate env.now)
        (lastPlannedDate calendar ownerId) scheme.restWeekdays).mapError .plan
      return (settings, some startsOn)
    | _, _ => return (settings, target.startsOn)

/-- The body of `activate_version` inside its transaction. -/
def activate (env : Env) (calendar : Calendar) (ownerId versionId : Nat)
    (timezone : Option String) : Except ActivationError (RoadmapVersion × Calendar) := do
  let target ← eligibleVersion calendar ownerId versionId
  let active := activeVersion? calendar ownerId
  raiseFirst [
    (active.any fun version => !inOrder version.activatedAt env.now, activationUnavailable),
    (!inOrder target.approvedAt env.now, activationUnavailable)]
  let (settings, startsOn) ← selectVersion env calendar ownerId timezone active target
  let activated := { target with
    activatedAt := some env.now, state := .active, startsOn := startsOn }
  let versions := calendar.versions.map fun version =>
    if version.id = target.id then activated
    else if active.any (fun found => found.id == version.id) then supersede version env.now
    else version
  return (activated, { calendar with versions := versions, settings := settings })

/-- `activate_version`: what the transaction wrote, or nothing of it. -/
def activateVersion (env : Env) (calendar : Calendar) (ownerId versionId : Nat)
    (timezone : Option String) : Except ActivationError RoadmapVersion × Calendar :=
  match activate env calendar ownerId versionId timezone with
  | .ok (version, after) => (.ok version, after)
  | .error error => (.error error, calendar)

end TamForge.Roadmaps
