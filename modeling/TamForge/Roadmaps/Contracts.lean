import TamForge.Models.CanonicalJson
import TamForge.ProofSupport.Dicts
import TamForge.Recordings.Schemas

/-!
# Normalized roadmaps

`roadmaps/contracts.py`: the tasks, contracts, resources and exit criteria of a
parsed roadmap with their payloads, and the entries of a diff.  A dictionary is
the list of its fields in insertion order, and a tuple goes into a payload as a
list.
-/

namespace TamForge.Roadmaps.Parsing

open Models

/-- `None` goes into a payload as `null`. -/
def optional {α : Type} (write : α → Json) : Option α → Json
  | none => .null
  | some value => write value

def integer (value : Int) : Json := .number value.repr

def strings (values : List String) : Json := .array (values.map Json.string)

structure NormalizedProcedureStep where
  phase : String
  minutes : Option Int
  requirement : String
deriving DecidableEq

def NormalizedProcedureStep.toDict (step : NormalizedProcedureStep) : Json :=
  .object [("phase", .string step.phase), ("minutes", optional integer step.minutes),
    ("requirement", .string step.requirement)]

structure NormalizedCorrectionSelection where
  source : String
  maximumItems : Int
  allowedKinds : List String
  inheritsCorePrompt : Bool
  inheritsOriginalExercise : Bool
  inheritsOriginalMappingVersion : Bool
  noAttemptC : Bool
  skillLevelEffect : String
deriving DecidableEq

def NormalizedCorrectionSelection.toDict (selection : NormalizedCorrectionSelection) : Json :=
  .object [("source", .string selection.source),
    ("maximum_items", integer selection.maximumItems),
    ("allowed_kinds", strings selection.allowedKinds),
    ("inherits_core_prompt", .bool selection.inheritsCorePrompt),
    ("inherits_original_exercise", .bool selection.inheritsOriginalExercise),
    ("inherits_original_mapping_version", .bool selection.inheritsOriginalMappingVersion),
    ("no_attempt_c", .bool selection.noAttemptC),
    ("skill_level_effect", .string selection.skillLevelEffect)]

structure NormalizedTask where
  stableId : String
  month : Int
  week : Int
  day : Int
  block : String
  order : Int
  sourcePath : String
  sourceHeading : String
  exerciseType : Option String
  mappingVersion : Option String
  required : Bool
  timeboxMinutes : Int
  objective : String
  requiredOutput : List String
  passCriteria : List String
  evidenceRequirements : List String
  procedure : List NormalizedProcedureStep
  constraints : List String
  correctionSelection : Option NormalizedCorrectionSelection
  allowedAiRole : String
deriving DecidableEq

structure NormalizedTaskContract where
  stableId : String
  requiredOutput : List String
  passCriteria : List String
  evidenceRequirements : List String
  procedure : List NormalizedProcedureStep
  constraints : List String
  correctionSelection : Option NormalizedCorrectionSelection
deriving DecidableEq

def NormalizedTask.coreDict (task : NormalizedTask) : List (String × Json) :=
  [("stable_id", .string task.stableId), ("month", integer task.month),
    ("week", integer task.week), ("day", integer task.day), ("block", .string task.block),
    ("order", integer task.order), ("source_path", .string task.sourcePath),
    ("source_heading", .string task.sourceHeading),
    ("exercise_type", optional .string task.exerciseType),
    ("mapping_version", optional .string task.mappingVersion), ("required", .bool task.required),
    ("timebox_minutes", integer task.timeboxMinutes), ("objective", .string task.objective),
    ("allowed_ai_role", .string task.allowedAiRole)]

def contractFields (requiredOutput passCriteria evidenceRequirements : List String)
    (procedure : List NormalizedProcedureStep) (constraints : List String)
    (correctionSelection : Option NormalizedCorrectionSelection) : List (String × Json) :=
  [("required_output", strings requiredOutput), ("pass_criteria", strings passCriteria),
    ("evidence_requirements", strings evidenceRequirements),
    ("procedure", .array (procedure.map NormalizedProcedureStep.toDict)),
    ("constraints", strings constraints),
    ("correction_selection", optional NormalizedCorrectionSelection.toDict correctionSelection)]

def NormalizedTask.toDict (task : NormalizedTask) : List (String × Json) :=
  task.coreDict ++ contractFields task.requiredOutput task.passCriteria task.evidenceRequirements
    task.procedure task.constraints task.correctionSelection

def NormalizedTaskContract.toDict (contract : NormalizedTaskContract) : List (String × Json) :=
  ("stable_id", .string contract.stableId) :: contractFields contract.requiredOutput
    contract.passCriteria contract.evidenceRequirements contract.procedure contract.constraints
    contract.correctionSelection

inductive ResourceKind
  | external | localFile
deriving DecidableEq

def ResourceKind.text : ResourceKind → String
  | external => "external"
  | localFile => "local"

structure NormalizedResource where
  key : String
  kind : ResourceKind
  labels : List String
  sourcePaths : List String
deriving DecidableEq

def NormalizedResource.toDict (resource : NormalizedResource) : List (String × Json) :=
  [("key", .string resource.key), ("kind", .string resource.kind.text),
    ("labels", strings resource.labels), ("source_paths", strings resource.sourcePaths)]

structure NormalizedExitCriterion where
  text : String
  sourcePaths : List String
deriving DecidableEq

def NormalizedExitCriterion.toDict (criterion : NormalizedExitCriterion) : List (String × Json) :=
  [("text", .string criterion.text), ("source_paths", strings criterion.sourcePaths)]

structure ParsedRoadmap where
  schemaVersion : Int
  roadmapVersion : String
  tasks : List NormalizedTask
  contracts : List NormalizedTaskContract
  resources : List NormalizedResource
  exitCriteria : List NormalizedExitCriterion
  normalizedHash : String
  scheme : Option (List (String × Json))
deriving DecidableEq

def ParsedRoadmap.payloadDict (roadmap : ParsedRoadmap) : List (String × Json) :=
  [("schema_version", integer roadmap.schemaVersion),
    ("roadmap_version", .string roadmap.roadmapVersion),
    ("scheme", optional .object roadmap.scheme),
    ("tasks", .array (roadmap.tasks.map fun task => .object task.toDict)),
    ("contracts", .array (roadmap.contracts.map fun contract => .object contract.toDict)),
    ("resources", .array (roadmap.resources.map fun resource => .object resource.toDict)),
    ("exit_criteria", .array (roadmap.exitCriteria.map fun criterion => .object criterion.toDict))]

def ParsedRoadmap.toDict (roadmap : ParsedRoadmap) : List (String × Json) :=
  roadmap.payloadDict ++ [("normalized_hash", .string roadmap.normalizedHash)]

def payloadHash (payload : List (String × Json)) : String :=
  Recordings.hexdigest (sha256 (Json.object payload).canonicalPlain)

/-! ## Diffs -/

inductive ChangeStatus
  | added | removed | changed | unchanged
deriving DecidableEq

structure FieldChange where
  name : String
  before : Json
  after : Json

structure EntityChange where
  key : String
  status : ChangeStatus
  fields : List FieldChange
  before : Option (List (String × Json))
  after : Option (List (String × Json))

structure DiffSection where
  entries : List EntityChange

structure SemanticRoadmapDiff where
  tasks : DiffSection
  passContracts : DiffSection
  resources : DiffSection
  exitCriteria : DiffSection

namespace SemanticRoadmapDiff

/-- The four sections, in the order `summary` goes through them. -/
def sections (diff : SemanticRoadmapDiff) : List DiffSection :=
  [diff.tasks, diff.passContracts, diff.resources, diff.exitCriteria]

/-- `summary[status]` -/
def summary (diff : SemanticRoadmapDiff) (status : ChangeStatus) : Nat :=
  (diff.sections.flatMap DiffSection.entries).countP fun entry => entry.status = status

def isSemanticallyIdentical (diff : SemanticRoadmapDiff) : Bool :=
  [ChangeStatus.added, .removed, .changed].all fun status => diff.summary status == 0

end SemanticRoadmapDiff

end TamForge.Roadmaps.Parsing

/-!
## The semantic diff

`roadmaps/diff.py`: four sections, each keyed by its own identifier, compared
payload by payload and field by field.
-/

namespace TamForge.Roadmaps.Parsing

open Models ProofSupport

def fieldChanges (before after : List (String × Json)) : List FieldChange :=
  ((Dict.sortedSet (before.map Prod.fst ++ after.map Prod.fst)).filter fun name =>
    Json.get before name != Json.get after name).map fun name =>
      ⟨name, Json.get before name, Json.get after name⟩

def entityChange (key : String) : Option (List (String × Json)) → Option (List (String × Json)) →
    EntityChange
  | none, after => ⟨key, .added, [], none, after⟩
  | some before, none => ⟨key, .removed, [], some before, none⟩
  | some before, some after =>
    let fields := fieldChanges before after
    ⟨key, if fields.isEmpty then .unchanged else .changed, fields, some before, some after⟩

/-- `{key(item): payload(item) for item in items}` -/
def keyed {α : Type} (key : α → String) (payload : α → List (String × Json)) (items : List α) :
    List (String × List (String × Json)) :=
  Dict.ofItems (items.map fun item => (key item, payload item))

/-- `_section`.  The keys run over both dictionaries in their order. -/
def diffSection {α : Type} (beforeItems afterItems : List α) (key : α → String)
    (payload : α → List (String × Json)) : DiffSection :=
  let before := keyed key payload beforeItems
  let after := keyed key payload afterItems
  ⟨(Dict.sortedSet (before.map Prod.fst ++ after.map Prod.fst)).map fun itemKey =>
    entityChange itemKey (Dict.get? before itemKey) (Dict.get? after itemKey)⟩

def diffRoadmaps (before after : ParsedRoadmap) : SemanticRoadmapDiff where
  tasks := diffSection before.tasks after.tasks NormalizedTask.stableId NormalizedTask.coreDict
  passContracts := diffSection before.contracts after.contracts
    NormalizedTaskContract.stableId NormalizedTaskContract.toDict
  resources := diffSection before.resources after.resources
    NormalizedResource.key NormalizedResource.toDict
  exitCriteria := diffSection before.exitCriteria after.exitCriteria
    NormalizedExitCriterion.text NormalizedExitCriterion.toDict

end TamForge.Roadmaps.Parsing
