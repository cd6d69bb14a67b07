import TamForge.Models.Base
import TamForge.Models.Json
import TamForge.ProofSupport.Checks
import TamForge.ProofSupport.Run
import TamForge.ProofSupport.Serial

/-!
# Staging a package

`stage_package` of `roadmaps/service.py` over the imports of `roadmaps/models.py`
and the transactions of `roadmaps/repository.py`.  A call is a sequence of
transactions, any number of calls may be under way, and a call may stop between
two of its transactions.
-/

namespace TamForge.Roadmaps

open Models ProofSupport

/-! ## Imports -/

/-- `roadmap_imports.status` -/
inductive ImportStatus
  | staged | validating | validated | imported | rejected | failed
deriving DecidableEq

def importTransitions : List (ImportStatus × ImportStatus) :=
  [(.staged, .validating), (.validating, .validated), (.validating, .rejected),
    (.validating, .failed), (.validated, .imported)]

/-- `_TERMINAL_IMPORT_STATES` -/
def ImportStatus.terminal : ImportStatus → Bool
  | imported | rejected | failed => true
  | staged | validating | validated => false

/-- The statuses that `_holds_parse` looks for. -/
def ImportStatus.finished : ImportStatus → Bool
  | validated | imported | rejected => true
  | staged | validating | failed => false

/-- `IMPORT_FAILURE_CODES` -/
inductive ImportFailureCode
  | invalidPackage | unsupportedSchema | hashMismatch | validationFailed | storageUnavailable
  | internalError
deriving DecidableEq

structure RoadmapSource where
  id : Nat
  ownerId : Nat
  sourceKey : String
  name : String
  sourceKind : String

/-- A row of `roadmap_imports`; its package hash is kept as the hexadecimal text
that records show. -/
structure RoadmapImport where
  id : Nat
  ownerId : Nat
  sourceId : Nat
  packageHash : String
  objectKey : String
  status : ImportStatus
  validationReport : Json
  semanticDiff : Json
  idempotencyKey : String
  failureCode : Option ImportFailureCode
  createdAt : Instant
  startedAt : Option Instant
  completedAt : Option Instant
deriving DecidableEq

structure VersionPayload where
  ownerId : Nat
  sourceId : Nat
  versionKey : String
  versionNumber : Nat
  normalizedPayload : Json

structure ImportTables where
  sources : Serial RoadmapSource
  imports : Serial RoadmapImport
  versions : List VersionPayload

structure RoadmapImportRecord where
  id : Nat
  ownerId : Nat
  sourceId : Nat
  sourceKey : String
  packageHash : String
  objectKey : String
  status : ImportStatus
  validationReport : Json
  semanticDiff : Json
  idempotencyKey : String
  failureCode : Option ImportFailureCode

def toImport (item : RoadmapImport) (sourceKey : String) : RoadmapImportRecord where
  id := item.id
  ownerId := item.ownerId
  sourceId := item.sourceId
  sourceKey := sourceKey
  packageHash := item.packageHash
  objectKey := item.objectKey
  status := item.status
  validationReport := item.validationReport
  semanticDiff := item.semanticDiff
  idempotencyKey := item.idempotencyKey
  failureCode := item.failureCode

/-! ## Requests -/

inductive StagingError
  | invalidRequest (message : String)
  | conflict (message : String)
  | notFound (message : String)
  | workflow (message : String)
  | unavailable (message : String)
  /-- A stored payload of the previous version that cannot be read. -/
  | unreadable

structure ValidationIssue where
  code : String
  path : Option String
  severity : String
  message : String
deriving DecidableEq

/-- `InspectedRoadmapPackage`, with the contents of its staged files. -/
structure InspectedRoadmapPackage where
  files : List (String × List UInt8)
  issues : List ValidationIssue
  archiveSha256 : Option String

structure StageRequest where
  ownerId : Nat
  sourceKey : String
  sourceName : String
  sourceKind : String
  packageKind : String
  idempotencyKey : String
  package : InspectedRoadmapPackage

/-- What staging uses of a `ParsedRoadmap`. -/
structure ParsedRoadmap where
  roadmapVersion : String
  normalizedHash : String
  taskCount : Nat
  resourceCount : Nat
  exitCriterionCount : Nat
  schemeSummary : Json
  payload : Json

/-- What a call takes from its deployment: the hash of the canonical ZIP of some
files, the parser with its configuration, the diff against the payload of the
previous version, and the size of a document as `jsonb` prints it, two octets for
an empty object. -/
structure StagingEnv where
  folderSha256 : List (String × List UInt8) → String
  parseRoadmap : List (String × List UInt8) → Except String ParsedRoadmap
  diff : Option Json → ParsedRoadmap → Option Json
  octets : Json → Nat
  octets_empty : octets (.object []) = 2

/-- `_snapshot`: the hash of the bytes that are stored. -/
def snapshotHash (env : StagingEnv) (request : StageRequest) : Except StagingError String :=
  if request.packageKind = "zip" then
    match request.package.archiveSha256 with
    | none => .error (.invalidRequest "ZIP package bytes are unavailable")
    | some sha256 => .ok sha256
  else if request.packageKind = "folder_entries" then
    if request.package.files.isEmpty then
      .error (.invalidRequest "folder package bytes are unavailable")
    else .ok (env.folderSha256 request.package.files)
  else .error (.invalidRequest "package_kind must be zip or folder_entries")

def optionalText : Option String → Json
  | none => .null
  | some text => .string text

def issuePayload (issue : ValidationIssue) : Json :=
  .object [("code", .string issue.code), ("path", optionalText issue.path),
    ("severity", .string issue.severity), ("message", .string issue.message)]

def rejectionReport (code : String) (path : Option String) (message : String) : Json :=
  .object [("schema_version", .number "1"), ("accepted", .bool false),
    ("issues", .array [issuePayload ⟨code, path, "error", message⟩])]

def acceptanceReport (parsed : ParsedRoadmap) : Json :=
  .object [("schema_version", .number "1"), ("accepted", .bool true),
    ("normalized_hash", .string parsed.normalizedHash),
    ("task_count", .number (toString parsed.taskCount)),
    ("resource_count", .number (toString parsed.resourceCount)),
    ("exit_criterion_count", .number (toString parsed.exitCriterionCount)),
    ("scheme_summary", parsed.schemeSummary), ("issues", .array [])]

/-- The `normalized_hash` of a stored report, as `->>` reads it. -/
def storedHash : Json → Option String
  | .object fields => match Json.item? fields "normalized_hash" with
      | some (.string text) => some text
      | _ => none
  | _ => none

/-- A checked request: the hash of its package, and what validating it gave. -/
structure Prepared where
  packageHash : String
  report : Json
  parsed : Except ImportFailureCode ParsedRoadmap

def Prepared.normalizedHash (prepared : Prepared) : Option String :=
  match prepared.parsed with
  | .error _ => none
  | .ok parsed => some parsed.normalizedHash

/-- `_validate` -/
def validatePackage (env : StagingEnv) (package : InspectedRoadmapPackage) :
    Json × Except ImportFailureCode ParsedRoadmap :=
  if package.issues.isEmpty then
    match env.parseRoadmap package.files with
    | .error message =>
      (rejectionReport "roadmap_validation_failed" none message, .error .validationFailed)
    | .ok parsed => (acceptanceReport parsed, .ok parsed)
  else
    (.object [("schema_version", .number "1"), ("accepted", .bool false),
      ("issues", .array (package.issues.map issuePayload))], .error .invalidPackage)

/-- `^[a-z0-9][a-z0-9._-]{0,127}$` -/
def safeSourceKey : String → Bool :=
  matchesPattern (fun c => c.isLower || c.isDigit) isVersionChar 127

/-- What `stage_package` does before its first transaction. -/
def prepare (env : StagingEnv) (request : StageRequest) : Except StagingError Prepared := do
  raiseFirst [
    (request.ownerId == 0 || !safeSourceKey request.sourceKey,
      .invalidRequest "roadmap source is invalid"),
    (!(["obsidian", "package", "manual"] : List String).contains request.sourceKind,
      .invalidRequest "roadmap source kind is invalid"),
    (isBlank request.sourceName || decide (256 < request.sourceName.utf8ByteSize),
      .invalidRequest "roadmap source name is invalid"),
    (!safeKey request.idempotencyKey, .invalidRequest "Idempotency-Key is invalid")]
  let packageHash ← snapshotHash env request
  let (report, parsed) := validatePackage env request.package
  return ⟨packageHash, report, parsed⟩

/-- `build_object_key` for the package of an import. -/
def importObjectKey (ownerId : Nat) (packageHash : String) : String :=
  "/".intercalate ["roadmap-source", toString ownerId,
    "import-" ++ String.ofList (packageHash.toList.take 24), packageHash]

/-! ## Transactions -/

def stagingUnavailable : StagingError :=
  .unavailable "roadmap storage is unavailable"

def keyReused : StagingError :=
  .conflict "Idempotency-Key was already used for different content"

namespace ImportTables

def byKey (tables : ImportTables) (ownerId : Nat) (idempotencyKey : String) :
    Option RoadmapImport :=
  tables.imports.rows.find? fun item =>
    item.ownerId = ownerId ∧ item.idempotencyKey = idempotencyKey

def source? (tables : ImportTables) (ownerId sourceId : Nat) : Option RoadmapSource :=
  tables.sources.rows.find? fun source => source.ownerId = ownerId ∧ source.id = sourceId

def sourceByKey (tables : ImportTables) (ownerId : Nat) (sourceKey : String) :
    Option RoadmapSource :=
  tables.sources.rows.find? fun source =>
    source.ownerId = ownerId ∧ source.sourceKey = sourceKey

/-- `_holds_parse` on an import of the package. -/
def byPackage (tables : ImportTables) (ownerId sourceId : Nat) (prepared : Prepared) :
    Option RoadmapImport :=
  tables.imports.rows.find? fun item => item.ownerId = ownerId ∧ item.sourceId = sourceId ∧
    item.packageHash = prepared.packageHash ∧ item.status.finished = true ∧
    storedHash item.validationReport = prepared.normalizedHash

/-- `_locked_import` -/
def locked (tables : ImportTables) (ownerId importId : Nat) :
    Except StagingError (RoadmapImport × String) :=
  match tables.imports.rows.find? fun item => item.ownerId = ownerId ∧ item.id = importId with
  | none => .error (.notFound "roadmap import was not found")
  | some item => match tables.source? ownerId item.sourceId with
      | none => .error (.notFound "roadmap import was not found")
      | some source => .ok (item, source.sourceKey)

end ImportTables

def findDuplicateImport (tables : ImportTables) (request : StageRequest) (prepared : Prepared) :
    Option RoadmapImportRecord :=
  match tables.byKey request.ownerId request.idempotencyKey with
  | some item =>
    (tables.source? request.ownerId item.sourceId).map fun source =>
      toImport item source.sourceKey
  | none =>
    (tables.sourceByKey request.ownerId request.sourceKey).bind fun source =>
      (tables.byPackage request.ownerId source.id prepared).map fun item =>
        toImport item source.sourceKey

def ensureSource (tables : ImportTables) (request : StageRequest) :
    RoadmapSource × ImportTables :=
  match tables.sourceByKey request.ownerId request.sourceKey with
  | some source => (source, tables)
  | none =>
    let (source, sources) := tables.sources.insert fun id =>
      ⟨id, request.ownerId, request.sourceKey, request.sourceName, request.sourceKind⟩
    (source, { tables with sources := sources })

/-- `create_staged_import`: the import, and whether it is a new one. -/
def createStagedImport (tables : ImportTables) (now : Instant) (request : StageRequest)
    (prepared : Prepared) :
    Except StagingError (RoadmapImportRecord × Bool × ImportTables) := do
  let (source, tables) := ensureSource tables request
  match tables.byKey request.ownerId request.idempotencyKey with
  | some item =>
    raiseFirst [(item.sourceId != source.id || item.packageHash != prepared.packageHash,
      keyReused)]
    return (toImport item source.sourceKey, false, tables)
  | none => match tables.byPackage request.ownerId source.id prepared with
      | some item => return (toImport item source.sourceKey, false, tables)
      | none =>
        let (item, imports) := tables.imports.insert fun id =>
          { id := id, ownerId := request.ownerId, sourceId := source.id,
            packageHash := prepared.packageHash,
            objectKey := importObjectKey request.ownerId prepared.packageHash,
            status := .staged, validationReport := .object [], semanticDiff := .object [],
            idempotencyKey := request.idempotencyKey, failureCode := none, createdAt := now,
            startedAt := none, completedAt := none }
        return (toImport item source.sourceKey, true, { tables with imports := imports })

/-- The fields that belong to a status. -/
def importCoherent (item : RoadmapImport) : Bool :=
  match item.status with
  | .staged => item.startedAt.isNone && item.completedAt.isNone && item.failureCode.isNone
  | .validating => item.startedAt.isSome && item.completedAt.isNone && item.failureCode.isNone
  | .validated | .imported =>
    item.startedAt.isSome && item.completedAt.isSome && item.failureCode.isNone
  | .rejected | .failed =>
    item.startedAt.isSome && item.completedAt.isSome && item.failureCode.isSome

/-- The `CHECK` constraints that an update of an import can break. -/
def importStorable (env : StagingEnv) (item : RoadmapImport) : Bool :=
  item.startedAt.all (fun started => decide (item.createdAt ≤ started)) &&
    item.completedAt.all (fun completed =>
      decide (item.startedAt.getD item.createdAt ≤ completed)) &&
    decide (env.octets item.validationReport ≤ 1048576) &&
    decide (env.octets item.semanticDiff ≤ 1048576)

def updateImport (env : StagingEnv) (tables : ImportTables) (old new : RoadmapImport) :
    Except StagingError ImportTables := do
  raiseFirst [
    (old.status.terminal && new != old, .workflow "terminal roadmap import is immutable"),
    (new.status != old.status && !importTransitions.contains (old.status, new.status),
      .workflow "invalid roadmap import transition"),
    (!importCoherent new, .workflow "roadmap import lifecycle is not coherent"),
    (!importStorable env new, stagingUnavailable)]
  return { tables with imports := tables.imports.replace (fun item => item.id) new }

def beginValidation (env : StagingEnv) (tables : ImportTables) (now : Instant)
    (ownerId importId : Nat) : Except StagingError (RoadmapImportRecord × ImportTables) := do
  let (item, sourceKey) ← tables.locked ownerId importId
  let changed := { item with status := .validating, startedAt := some now }
  let after ← updateImport env tables item changed
  return (toImport changed sourceKey, after)

/-- `finish_validation` with the diff, or `reject_validation` with the failure. -/
def endValidation (env : StagingEnv) (tables : ImportTables) (now : Instant)
    (ownerId importId : Nat) (report : Json) (result : Except ImportFailureCode Json) :
    Except StagingError (RoadmapImportRecord × ImportTables) := do
  let (item, sourceKey) ← tables.locked ownerId importId
  let changed := match result with
    | .ok diff =>
      { item with
        validationReport := report, semanticDiff := diff, status := .validated,
        completedAt := some now }
    | .error code =>
      { item with
        validationReport := report, failureCode := some code, status := .rejected,
        completedAt := some now }
  let after ← updateImport env tables item changed
  return (toImport changed sourceKey, after)

def versionKeyExists (tables : ImportTables) (ownerId sourceId : Nat) (versionKey : String) :
    Bool :=
  tables.versions.any fun version => version.ownerId == ownerId &&
    version.sourceId == sourceId && version.versionKey == versionKey

def latestNormalizedPayload (tables : ImportTables) (ownerId sourceId : Nat) : Option Json :=
  ((tables.versions.filter fun version => version.ownerId = ownerId ∧
    version.sourceId = sourceId).foldl (fun best version =>
      match best with
      | none => some version
      | some chosen =>
        if chosen.versionNumber < version.versionNumber then some version else some chosen)
    none).map fun version => version.normalizedPayload

/-! ## Calls under way -/

/-- The next transaction of a call, with what the ones before it returned. -/
inductive StagePhase
  | looking
  | storing
  | creating
  | beginning (importId sourceId : Nat)
  | checking (importId sourceId : Nat) (parsed : ParsedRoadmap)
  | comparing (importId sourceId : Nat) (parsed : ParsedRoadmap)
  | ending (importId : Nat) (report : Json) (result : Except ImportFailureCode Json)
  | returned (record : RoadmapImportRecord)
  | raised (error : StagingError)

namespace StagePhase

/-- The import that the call created and has not finished. -/
def held : StagePhase → Option Nat
  | beginning importId _ | checking importId _ _ | comparing importId _ _
  | ending importId _ _ => some importId
  | looking | storing | creating | returned _ | raised _ => none

def looksUp : StagePhase → Bool
  | looking | creating => true
  | _ => false

def underWay : StagePhase → Bool
  | returned _ | raised _ => false
  | _ => true

end StagePhase

structure StageCall where
  id : Nat
  env : StagingEnv
  request : StageRequest
  prepared : Prepared
  phase : StagePhase

/-- The next transaction of a call of `stage_package`. -/
def StageCall.transaction (call : StageCall) (tables : ImportTables) (now : Instant) :
    Except StagingError (StagePhase × ImportTables) := do
  let ownerId := call.request.ownerId
  match call.phase with
  | .looking => match findDuplicateImport tables call.request call.prepared with
      | none => return (.storing, tables)
      | some duplicate =>
        raiseFirst [(duplicate.idempotencyKey == call.request.idempotencyKey &&
          (duplicate.sourceKey != call.request.sourceKey ||
            duplicate.packageHash != call.prepared.packageHash), keyReused)]
        return (.returned duplicate, tables)
  | .storing => return (.creating, tables)
  | .creating =>
    let (record, created, after) ←
      createStagedImport tables now call.request call.prepared
    if created then return (.beginning record.id record.sourceId, after)
    else return (.returned record, after)
  | .beginning importId sourceId =>
    let (_, after) ← beginValidation call.env tables now ownerId importId
    match call.prepared.parsed with
    | .error code => return (.ending importId call.prepared.report (.error code), after)
    | .ok parsed => return (.checking importId sourceId parsed, after)
  | .checking importId sourceId parsed =>
    if versionKeyExists tables ownerId sourceId parsed.roadmapVersion then
      return (.ending importId
        (rejectionReport "roadmap_version_exists" (some "roadmap.yaml")
          ("program.key '" ++ parsed.roadmapVersion ++ "' is already a version of this " ++
            "roadmap; give the scheme a new program.key")) (.error .validationFailed), tables)
    else return (.comparing importId sourceId parsed, tables)
  | .comparing importId sourceId parsed =>
    match call.env.diff (latestNormalizedPayload tables ownerId sourceId) parsed with
    | none => throw .unreadable
    | some diff => return (.ending importId call.prepared.report (.ok diff), tables)
  | .ending importId report result =>
    let (record, after) ← endValidation call.env tables now ownerId importId report result
    return (.returned record, after)
  | .returned record => return (.returned record, tables)
  | .raised error => throw error

/-- The tables and the calls, finished ones included. -/
structure Staging where
  tables : ImportTables
  calls : List StageCall

namespace Staging

def setPhase (state : Staging) (id : Nat) (phase : StagePhase) : List StageCall :=
  state.calls.map fun other => if other.id = id then { other with phase := phase } else other

def advance (state : Staging) (call : StageCall) (now : Instant) : Staging :=
  match call.transaction state.tables now with
  | .ok (phase, tables) => ⟨tables, state.setPhase call.id phase⟩
  | .error error => ⟨state.tables, state.setPhase call.id (.raised error)⟩

def drop (state : Staging) (id : Nat) : Staging :=
  { state with calls := state.calls.filter fun other => other.id != id }

end Staging

inductive StageEvent
  | called (id : Nat)
  | advanced (id : Nat) (now : Instant)
  | stopped (id : Nat)
  | imported (importId : Nat)

/-- One step of the system.  `stopped` is a call that stops between two of its
transactions, whatever the reason; `imported` is an approval of a validated
import, which stores its version. -/
inductive StageStep : Staging → StageEvent → Staging → Prop
  | called {state : Staging} {env : StagingEnv} {request : StageRequest} {prepared : Prepared}
      {id : Nat} (fresh : ∀ other ∈ state.calls, other.id ≠ id)
      (accepted : prepare env request = .ok prepared) :
      StageStep state (.called id)
        { state with calls := state.calls ++ [⟨id, env, request, prepared, .looking⟩] }
  | advanced {state : Staging} {call : StageCall} (now : Instant) (mem : call ∈ state.calls)
      (under_way : call.phase.underWay = true) :
      StageStep state (.advanced call.id now) (state.advance call now)
  | stopped {state : Staging} {call : StageCall} (mem : call ∈ state.calls)
      (under_way : call.phase.underWay = true) :
      StageStep state (.stopped call.id) (state.drop call.id)
  | imported {state : Staging} {item : RoadmapImport} (version : VersionPayload)
      (mem : item ∈ state.tables.imports.rows) (validated : item.status = .validated) :
      StageStep state (.imported item.id)
        { state with
          tables := { state.tables with
            imports := state.tables.imports.replace (fun item => item.id)
              { item with status := .imported },
            versions := state.tables.versions ++ [version] } }

end TamForge.Roadmaps
