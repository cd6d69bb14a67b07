import TamForge.Roadmaps.Parser
import TamForge.Roadmaps.Staging

/-!
# Validating and reloading

`RoadmapService._validate` with its reports, and `_parsed_from_payload`, which
rebuilds a parsed roadmap from its stored payload.
-/

namespace TamForge.Roadmaps.Parsing

open Models ProofSupport

/-! ## Reading stored values -/

/-- What reading a stored payload can raise. -/
inductive ReloadFailure
  | value (message : String)
  | key (name : String)
  | type (message : String)

/-- `value[key]` -/
def member (fields : List (String × Json)) (key : String) : Except ReloadFailure Json :=
  match Json.item? fields key with
  | none => .error (.key key)
  | some value => .ok value

/-- `int(value)`; of a number that is no integer it is the whole part. -/
def pyInt : Json → Except ReloadFailure Int
  | .bool value => .ok (if value then 1 else 0)
  | .number text =>
    match text.toInt?.orElse fun _ => ((text.splitOn ".").headD "").toInt? with
    | some value => .ok value
    | none => .error (.value "cannot convert float to integer")
  | .string text =>
    match text.toInt? with
    | some value => .ok value
    | none => .error (.value ("invalid literal for int() with base 10: '" ++ text ++ "'"))
  | _ => .error (.type "int() argument must be a string, a bytes-like object or a real number")

/-- `isinstance(value, int)`, with the integer. -/
def asInt : Json → Option Int
  | .bool value => some (if value then 1 else 0)
  | .number text => text.toInt?
  | _ => none

def asString : Json → Option String
  | .string text => some text
  | _ => none

/-- `None if value is None else str(value)` -/
def optionalStr : Json → Option String
  | .null => none
  | value => some value.pyStr

def memberStr (fields : List (String × Json)) (key : String) : Except ReloadFailure String := do
  let value ← member fields key
  return value.pyStr

def memberInt (fields : List (String × Json)) (key : String) : Except ReloadFailure Int := do
  let value ← member fields key
  pyInt value

def memberBool (fields : List (String × Json)) (key : String) : Except ReloadFailure Bool := do
  let value ← member fields key
  return value.truthy

/-! ## Reloading -/

def tupleStrings : Json → Except ReloadFailure (List String)
  | .array items =>
    match items.mapM asString with
    | some texts => .ok texts
    | none => .error (.value "stored roadmap list is invalid")
  | _ => .error (.value "stored roadmap list is invalid")

def memberStrings (fields : List (String × Json)) (key : String) :
    Except ReloadFailure (List String) := do
  let value ← member fields key
  tupleStrings value

/-- The minutes of a stored step, `some none` where they are `None`. -/
def storedMinutes : Json → Option (Option Int)
  | .null => some none
  | value => (asInt value).map some

def procedureStep : Json → Option NormalizedProcedureStep
  | .object fields => do
      let phase ← asString (Json.get fields "phase")
      let minutes ← storedMinutes (Json.get fields "minutes")
      let requirement ← asString (Json.get fields "requirement")
      return ⟨phase, minutes, requirement⟩
  | _ => none

def procedure : Json → Except ReloadFailure (List NormalizedProcedureStep)
  | .array items =>
    match items.mapM procedureStep with
    | some steps => .ok steps
    | none => .error (.value "stored roadmap procedure is invalid")
  | _ => .error (.value "stored roadmap procedure is invalid")

def correction : Json → Except ReloadFailure (Option NormalizedCorrectionSelection)
  | .null => .ok none
  | .object fields => do
      let source ← memberStr fields "source"
      let maximumItems ← memberInt fields "maximum_items"
      let allowedKinds ← memberStrings fields "allowed_kinds"
      let inheritsCorePrompt ← memberBool fields "inherits_core_prompt"
      let inheritsOriginalExercise ← memberBool fields "inherits_original_exercise"
      let inheritsOriginalMappingVersion ← memberBool fields "inherits_original_mapping_version"
      let noAttemptC ← memberBool fields "no_attempt_c"
      let skillLevelEffect ← memberStr fields "skill_level_effect"
      return some ⟨source, maximumItems, allowedKinds, inheritsCorePrompt,
        inheritsOriginalExercise, inheritsOriginalMappingVersion, noAttemptC, skillLevelEffect⟩
  | _ => .error (.value "stored correction selection is invalid")

def reloadTask : Json → Except ReloadFailure NormalizedTask
  | .object raw => do
      let stableId ← memberStr raw "stable_id"
      let month ← memberInt raw "month"
      let week ← memberInt raw "week"
      let day ← memberInt raw "day"
      let block ← memberStr raw "block"
      let order ← memberInt raw "order"
      let sourcePath ← memberStr raw "source_path"
      let sourceHeading ← memberStr raw "source_heading"
      let required ← memberBool raw "required"
      let timeboxMinutes ← memberInt raw "timebox_minutes"
      let objective ← memberStr raw "objective"
      let requiredOutput ← memberStrings raw "required_output"
      let passCriteria ← memberStrings raw "pass_criteria"
      let evidenceRequirements ← memberStrings raw "evidence_requirements"
      let steps ← member raw "procedure"
      let steps ← procedure steps
      let constraints ← memberStrings raw "constraints"
      let correctionSelection ← correction (Json.get raw "correction_selection")
      let allowedAiRole ← memberStr raw "allowed_ai_role"
      return {
        stableId := stableId
        month := month
        week := week
        day := day
        block := block
        order := order
        sourcePath := sourcePath
        sourceHeading := sourceHeading
        exerciseType := optionalStr (Json.get raw "exercise_type")
        mappingVersion := optionalStr (Json.get raw "mapping_version")
        required := required
        timeboxMinutes := timeboxMinutes
        objective := objective
        requiredOutput := requiredOutput
        passCriteria := passCriteria
        evidenceRequirements := evidenceRequirements
        procedure := steps
        constraints := constraints
        correctionSelection := correctionSelection
        allowedAiRole := allowedAiRole }
  | _ => .error (.value "stored normalized task is invalid")

def reloadResource (raw : List (String × Json)) : Except ReloadFailure NormalizedResource := do
  let key ← memberStr raw "key"
  let kind ← member raw "kind"
  let labels ← memberStrings raw "labels"
  let sourcePaths ← memberStrings raw "source_paths"
  return ⟨key, if kind = .string "external" then .external else .localFile, labels, sourcePaths⟩

def reloadCriterion (raw : List (String × Json)) :
    Except ReloadFailure NormalizedExitCriterion := do
  let text ← memberStr raw "text"
  let sourcePaths ← memberStrings raw "source_paths"
  return ⟨text, sourcePaths⟩

/-- `for raw in items if isinstance(raw, dict)` -/
def mappings (items : List Json) : List (List (String × Json)) :=
  items.filterMap fun item =>
    match item with
    | .object fields => some fields
    | _ => none

/-- `_scheme_from_payload` -/
def schemeOf : Json → Except ReloadFailure (Option (List (String × Json)))
  | .null => .ok none
  | .object fields => .ok (some fields)
  | _ => .error (.value "stored normalized roadmap scheme is invalid")

def parsedFromPayload (value : List (String × Json)) : Except ReloadFailure ParsedRoadmap :=
  match Json.get value "tasks", Json.get value "resources", Json.get value "exit_criteria" with
  | .array tasksPayload, .array resourcesPayload, .array exitsPayload => do
      let tasks ← tasksPayload.mapM reloadTask
      let resources ← (mappings resourcesPayload).mapM reloadResource
      let exits ← (mappings exitsPayload).mapM reloadCriterion
      let some schemaVersion := asInt (Json.get value "schema_version")
        | throw (.value "stored roadmap schema version is invalid")
      let roadmapVersion ← memberStr value "roadmap_version"
      let normalizedHash ← memberStr value "normalized_hash"
      let scheme ← schemeOf (Json.get value "scheme")
      return {
        schemaVersion := schemaVersion
        roadmapVersion := roadmapVersion
        tasks := tasks
        contracts := tasks.map contractOf
        resources := resources
        exitCriteria := exits
        normalizedHash := normalizedHash
        scheme := scheme }
  | _, _, _ => .error (.value "stored normalized roadmap payload is invalid")

/-! ## Validating -/

/-- A day of the scheme with its number, as `int(number)` reads it. -/
def numberedDay (day : String × Json) : Except ReloadFailure (Int × String × Json) := do
  let number ← pyInt (.string day.1)
  return (number, day)

def dayBudget (day : String × Json) : Except ReloadFailure (List (String × Json)) :=
  match day.2 with
  | .object fields => do
      let budget ← memberInt fields "budget_minutes"
      return [(day.1, integer budget)]
  | _ => .ok []

/-- `scheme_summary_from_payload` -/
def schemeSummary (scheme : Option (List (String × Json))) : Except ReloadFailure Json :=
  let fields := scheme.getD []
  match Json.get fields "days", Json.get fields "program" with
  | .object days, .object program => do
      let numbered ← days.mapM numberedDay
      let ordered := numbered.mergeSort fun first second => first.1 ≤ second.1
      let budgets ← (ordered.map Prod.snd).mapM dayBudget
      let title := (Json.item? program "title").getD (.string "")
      return .object [("program", .string title.pyStr), ("study_days", integer ordered.length),
        ("budget_minutes", .object budgets.flatten)]
  | _, _ => .ok (.object [])

/-- What escapes `_validate`: a missing key of the parser, or an exception of the
summary. -/
inductive Uncaught
  | key (name : String)
  | summary (failure : ReloadFailure)

/-- What `_validate` answers: the report, the failure code and the parse. -/
structure Validation where
  report : Json
  failureCode : Option String
  parsed : Option ParsedRoadmap

def Validation.rejected (message : String) : Validation :=
  ⟨rejectionReport "roadmap_validation_failed" none message, some "validation_failed", none⟩

def Validation.invalidPackage (issues : List ValidationIssue) : Validation :=
  ⟨.object [("schema_version", .number "1"), ("accepted", .bool false),
    ("issues", .array (issues.map issuePayload))], some "invalid_package", none⟩

def Validation.accepted (parsed : ParsedRoadmap) (summary : Json) : Validation :=
  ⟨.object [("schema_version", .number "1"), ("accepted", .bool true),
    ("normalized_hash", .string parsed.normalizedHash),
    ("task_count", integer parsed.tasks.length),
    ("resource_count", integer parsed.resources.length),
    ("exit_criterion_count", integer parsed.exitCriteria.length),
    ("scheme_summary", summary), ("issues", .array [])], none, some parsed⟩

def validate (tools : TextTools) (config : ReleaseConfig) (package : InspectedRoadmapPackage) :
    Except Uncaught Validation :=
  if package.issues ≠ [] then .ok (.invalidPackage package.issues)
  else
    match parseRoadmap tools package.files config with
    | .error (.parse message) => .ok (.rejected message)
    | .error (.value message) => .ok (.rejected message)
    | .error (.key name) => .error (.key name)
    | .ok parsed => do
        let summary ← (schemeSummary parsed.scheme).mapError Uncaught.summary
        return .accepted parsed summary

end TamForge.Roadmaps.Parsing
