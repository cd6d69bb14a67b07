import TamForge.Learning.Scheduling
import TamForge.ProofSupport.Run

/-!
# Curriculum tables

The rows of `roadmaps/models.py`: versions with their lifecycle, and the
curriculum with the columns that studying a day reads.
-/

namespace TamForge.Roadmaps

open Learning Models

/-- `allowed_ai_role` -/
inductive AiRole
  | none | planner | tutor | coach | interviewer | reviewer | analyst
deriving DecidableEq

/-- A full row of `task_definitions`. -/
structure TaskDefinitionRow extends TaskDefinition where
  curriculumNodeId : Nat
  objective : String
  timeboxMinutes : Nat
  block : ActivityBlock
  required : Bool
  outputContract : Json
  passContract : Json
  evidenceContract : Json
  sourceReferences : List Json
  allowedAiRole : AiRole
  sourcePath : Option String
  sourceAnchor : Option String

/-- `curriculum_nodes.kind` -/
inductive NodeKind
  | month | week | day | task
deriving DecidableEq

/-- A row of `curriculum_nodes`. -/
structure CurriculumNode where
  id : Nat
  ownerId : Nat
  roadmapVersionId : Nat
  stableId : String
  parentId : Option Nat
  ordinal : Nat
  kind : NodeKind
  title : String
  sourcePath : Option String
  sourceAnchor : Option String

/-- `roadmap_versions.state` -/
inductive VersionState
  | draft | approved | active | superseded
deriving DecidableEq

/-- `MIRROR_ERROR_CODES` -/
inductive MirrorErrorCode
  | storageUnavailable | writeFailed | conflict | permissionDenied | invalidReference
  | internalError
deriving DecidableEq

inductive MirrorStatus
  | pending | syncing | synced | failed | notRequired
deriving DecidableEq

/-- A row of `roadmap_versions`; of its normalized payload the scheme. -/
structure RoadmapVersion where
  id : Nat
  ownerId : Nat
  sourceId : Nat
  versionKey : String
  versionNumber : Nat
  monthNumber : Nat
  predecessorId : Option Nat
  contentHash : String
  objectKey : String
  scheme : Option StoredScheme
  createdAt : Instant
  approvedAt : Option Instant
  activatedAt : Option Instant
  supersededAt : Option Instant
  startsOn : Option Date
  mirrorStatus : MirrorStatus
  mirrorRef : Option String
  mirrorErrorCode : Option MirrorErrorCode
  state : VersionState

/-- A row of `month_exit_reviews`, as activating a version reads it. -/
structure MonthExitReview where
  ownerId : Nat
  roadmapVersionId : Nat
  completed : Bool
  advance : Bool
  activationEligible : Option Bool

end TamForge.Roadmaps

/-!
## Mirroring an approved version

The mirror fields of a version with the listeners of `roadmaps/models.py`, the
three transactions of the repository that write them, and the calls of
`approve_import` and `retry_mirror` that use them.  Each call is a sequence of
transactions, and any number of them may be under way.
-/

namespace TamForge.Roadmaps

open Models ProofSupport

def mirrorTransitions : List (MirrorStatus × MirrorStatus) :=
  [(.pending, .syncing), (.pending, .notRequired), (.syncing, .synced), (.syncing, .failed),
    (.failed, .syncing)]

/-- `_TERMINAL_MIRROR_STATES` -/
def MirrorStatus.terminal : MirrorStatus → Bool
  | synced | notRequired => true
  | pending | syncing | failed => false

/-- The mirror part of `validate_roadmap_version_workflow`. -/
def mirrorCoherent (status : MirrorStatus) (ref : Option String)
    (code : Option MirrorErrorCode) : Bool :=
  match status with
  | .pending | .syncing | .notRequired => ref.isNone && code.isNone
  | .synced => ref.any (fun text => !isBlank text) && code.isNone
  | .failed => ref.isNone && code.isSome

def mirrorRefBounded (ref : Option String) : Bool :=
  ref.all fun text => !isBtrimBlank text && decide (text.utf8ByteSize ≤ 512)

/-- What the transactions raise: a `RoadmapVersionWorkflowError`, or an outage. -/
inductive MirrorError
  | workflow (message : String)
  | unavailable

/-- One update of the mirror fields, through the listeners, the validator of a
changed row and its constraint. -/
def setMirror (version : RoadmapVersion) (status : MirrorStatus) (ref : Option String)
    (code : Option MirrorErrorCode) : Except MirrorError RoadmapVersion := do
  let fields := version.mirrorErrorCode != code || version.mirrorRef != ref
  let moved := version.mirrorStatus != status
  raiseFirst [
    ((fields || moved) && version.mirrorStatus.terminal,
      .workflow "terminal roadmap mirror is immutable"),
    (moved && !mirrorTransitions.contains (version.mirrorStatus, status),
      .workflow "invalid roadmap mirror transition"),
    ((fields || moved) && !mirrorCoherent status ref code,
      .workflow "roadmap mirror fields are not coherent"),
    ((fields || moved) && !mirrorRefBounded ref, .unavailable)]
  return { version with mirrorStatus := status, mirrorRef := ref, mirrorErrorCode := code }

def beginMirror (version : RoadmapVersion) : Except MirrorError RoadmapVersion :=
  setMirror version .syncing none none

def finishMirror (version : RoadmapVersion) (ref : String) :
    Except MirrorError RoadmapVersion :=
  setMirror version .synced (some ref) none

def failMirror (version : RoadmapVersion) (code : MirrorErrorCode) :
    Except MirrorError RoadmapVersion :=
  setMirror version .failed none (some code)

/-- What `RoadmapMirror.mirror` ends with; an exception that is no
`MirrorFailure` counts as `internal_error`. -/
inductive MirrorOutcome
  | mirrored (ref : String)
  | failed (code : MirrorErrorCode)

def endMirror (version : RoadmapVersion) : MirrorOutcome → Except MirrorError RoadmapVersion
  | .mirrored ref => finishMirror version ref
  | .failed code => failMirror version code

/-- The guard of `retry_mirror` on the version, with the mirror enabled. -/
def retryable (version : RoadmapVersion) : Bool :=
  version.mirrorStatus == .failed

/-! ## Calls under way -/

/-- Where a call is: before `begin_mirror`, or waiting for the mirror. -/
inductive Phase
  | beginning
  | mirroring
deriving DecidableEq

structure MirrorCall where
  id : Nat
  phase : Phase

structure Mirroring where
  version : Option RoadmapVersion
  calls : List MirrorCall

def Mirroring.drop (state : Mirroring) (call : Nat) : Mirroring :=
  { state with calls := state.calls.filter fun other => other.id != call }

def Mirroring.write (state : Mirroring) (call : Nat)
    (result : Except MirrorError RoadmapVersion) (next : Option Phase) : Mirroring :=
  match result with
  | .error _ => state.drop call
  | .ok version =>
    { version := some version,
      calls := (state.calls.filter fun other => other.id != call) ++
        (next.map fun phase => ⟨call, phase⟩).toList }

inductive MirrorEvent
  | approved (call : Nat)
  | retried (call : Nat)
  | refused (call : Nat)
  | begun (call : Nat)
  | ended (call : Nat) (outcome : MirrorOutcome)
  | crashed (call : Nat)

/-- One step of the system.  `crashed` is a call that stops between two of its
transactions, whatever the reason; `refused` is a retry of a version that is not
retryable. -/
inductive MirrorStep : Mirroring → MirrorEvent → Mirroring → Prop
  | approved {version : RoadmapVersion} {call : Nat} (pending : version.mirrorStatus = .pending)
      (ref : version.mirrorRef = none) (code : version.mirrorErrorCode = none) :
      MirrorStep ⟨none, []⟩ (.approved call) ⟨some version, [⟨call, .beginning⟩]⟩
  | retried {state : Mirroring} {version : RoadmapVersion} {call : Nat}
      (found : state.version = some version) (accepted : retryable version = true)
      (fresh : ∀ other ∈ state.calls, other.id ≠ call) :
      MirrorStep state (.retried call)
        { state with calls := state.calls ++ [⟨call, .beginning⟩] }
  | refused {state : Mirroring} {version : RoadmapVersion} {call : Nat}
      (found : state.version = some version) (refused : retryable version = false) :
      MirrorStep state (.refused call) state
  | begun {state : Mirroring} {version : RoadmapVersion} {call : Nat}
      (found : state.version = some version) (under_way : ⟨call, .beginning⟩ ∈ state.calls) :
      MirrorStep state (.begun call)
        (state.write call (beginMirror version) (some .mirroring))
  | ended {state : Mirroring} {version : RoadmapVersion} {call : Nat}
      (outcome : MirrorOutcome) (found : state.version = some version)
      (under_way : ⟨call, .mirroring⟩ ∈ state.calls) :
      MirrorStep state (.ended call outcome)
        (state.write call (endMirror version outcome) none)
  | crashed {state : Mirroring} {call : MirrorCall} (under_way : call ∈ state.calls) :
      MirrorStep state (.crashed call.id) (state.drop call.id)

end TamForge.Roadmaps
