import TamForge.Roadmaps.Contracts
import TamForge.Roadmaps.Scheme

/-!
# Parsing a package

`roadmaps/parser.py`, and the functions of `roadmaps/scheme.py` that read the
files of a package.  The regular expressions, the YAML loader and the Unicode
tables are parameters; a package is the list of its paths with their bytes.
-/

namespace TamForge.Roadmaps.Parsing

open Evidence Models ProofSupport

/-- The package as `_validate` reads it, one item for each path. -/
abbrev Files := List (String × Bytes)

/-- The text of its Markdown files. -/
abbrev Markdown := List (String × String)

/-- What `yaml.safe_load` raises. -/
inductive YamlFailure
  | yaml (message : String)
  | value (message : String)

/-- The third-party parsers and the tables of the standard library: `_HEADING`
gives the level and the title of a heading, `_FENCE` the first character of its
marker, the link expressions their groups, `urlsplit` its scheme and location. -/
structure TextTools where
  Payload : Type
  safeLoad : String → Except YamlFailure Payload
  isMapping : Payload → Bool
  /-- `SchemeFile.model_validate`, or the place and the message of its first error. -/
  validateScheme : Payload → Except (String × String) SchemeFile
  undecodable : Bytes → String
  nfc : String → String
  lower : String → String
  casefold : String → String
  splitlines : String → List String
  words : String → List String
  heading : String → Option (Nat × String)
  fence : String → Option Char
  wikiLinks : String → List (String × Option String)
  withoutWikiLinks : String → String
  markdownLinks : String → List (String × String)
  listItem : String → Option String
  queueId : String → Option String
  queueIds : String → List String
  urlsplit : String → Except String (String × String)

variable (tools : TextTools)

/-! ## Text -/

/-- `_text` -/
def cleanText (value : String) : String := " ".intercalate (tools.words (tools.nfc value))

/-- `_visible_lines`, inside the fence of the marker if there is one. -/
def visibleFrom (fenceMarker : Option Char) : List String → List String
  | [] => []
  | line :: rest =>
    match tools.fence line, fenceMarker with
    | some marker, none => visibleFrom (some marker) rest
    | some marker, some fence =>
      if marker = fence then visibleFrom none rest else visibleFrom (some fence) rest
    | none, none => line :: visibleFrom none rest
    | none, some fence => visibleFrom (some fence) rest

def visibleLines (markdown : String) : List String :=
  visibleFrom tools none (tools.splitlines markdown)

def decodeUtf8 (payload : Bytes) : Option String := String.fromUTF8? ⟨payload.toArray⟩

def decodeFile (file : String × Bytes) : Except ParseFailure (List (String × String)) :=
  if (tools.lower file.1).endsWith ".md" then
    match decodeUtf8 file.2 with
    | none => .error (.parse (file.1 ++ " must contain valid UTF-8 Markdown"))
    | some text => .ok [(file.1, text)]
  else .ok []

def decodeMarkdown (files : Files) : Except ParseFailure Markdown := do
  let markdown ← files.mapM (decodeFile tools)
  return markdown.flatten

def headingsOf (content : String) : List String :=
  (visibleLines tools content).filterMap fun line =>
    (tools.heading line).map fun heading => cleanText tools heading.2

/-- `headings_index(markdown).get(file, {}).get(heading, 0)` -/
def headingCount (markdown : Markdown) (file heading : String) : Nat :=
  match Dict.get? markdown file with
  | none => 0
  | some content => (headingsOf tools content).count heading

/-! ## Paths -/

/-- `posixpath.join` -/
def joinPosix (parent target : String) : String :=
  if target.startsWith "/" then target
  else if parent = "" ∨ parent.endsWith "/" then parent ++ target
  else parent ++ "/" ++ target

def rootSlashes (path : String) : Nat :=
  if path.startsWith "/" then
    if path.startsWith "//" && !path.startsWith "///" then 2 else 1
  else 0

def rootText (path : String) : String :=
  String.ofList (List.replicate (rootSlashes path) '/')

/-- One component in `posixpath.normpath`. -/
def normalizeComponent (root : Nat) (components : List String) (component : String) :
    List String :=
  if component = "" ∨ component = "." then components
  else if component ≠ ".." ∨ root = 0 ∧ components = [] ∨ components.getLast? = some ".." then
    components ++ [component]
  else components.dropLast

/-- `posixpath.normpath` -/
def normPosix (path : String) : String :=
  let components := (path.splitOn "/").foldl (normalizeComponent (rootSlashes path)) []
  let joined := rootText path ++ "/".intercalate components
  if joined = "" then "." else joined

/-- The parts of a `PurePosixPath` below its root. -/
def pathParts (path : String) : List String :=
  (path.splitOn "/").filter fun part => part ≠ "" ∧ part ≠ "."

/-- `PurePosixPath(path).parent.as_posix()` -/
def parentPosix (path : String) : String :=
  let joined := rootText path ++ "/".intercalate (pathParts path).dropLast
  if joined = "" then "." else joined

/-- `PurePosixPath(path).suffix` is not empty: a dot that is neither the first nor
the last character of the name. -/
def hasSuffix (path : String) : Bool :=
  let name := ((pathParts path).getLastD "").toList
  let after := name.reverse.takeWhile (· != '.')
  decide (0 < after.length) && decide (after.length + 1 < name.length)

/-- `^[A-Za-z]:` -/
def hasDrive (target : String) : Bool :=
  match target.toList with
  | letter :: ':' :: _ => letter.isAlpha
  | _ => false

def outside (target : String) : ParseFailure :=
  .parse ("resource reference '" ++ target ++ "' is outside the roadmap package")

def withoutFragment (target : String) : String := (target.splitOn "#").headD ""

def safeLocalTarget (sourcePath rawTarget : String) : Except ParseFailure String :=
  let target := tools.nfc ((withoutFragment rawTarget).replace "\\" "/")
  if target = "" then .ok sourcePath
  else if target.startsWith "/" || hasDrive target then .error (outside rawTarget)
  else
    let joined := normPosix (joinPosix (parentPosix sourcePath) target)
    if joined = ".." ∨ joined.startsWith "../" then .error (outside rawTarget) else .ok joined

/-- The candidates of an Obsidian link: from the root of the package, unless it
climbs, and then from its source. -/
def rootCandidates (target : String) : Except ParseFailure (List String) :=
  let rootTarget := tools.nfc (withoutFragment target)
  if rootTarget.startsWith "/" || hasDrive rootTarget then .error (outside target)
  else if rootTarget = ".." ∨ rootTarget.startsWith "../" then .ok []
  else .ok [rootTarget]

def expandCandidate (sourcePath candidate : String) : List String :=
  let path := if candidate = "" then sourcePath else candidate
  if hasSuffix path then [path] else [path, path ++ ".md"]

/-- The candidates that come before the one at the source. -/
def linkRoots (target : String) (obsidian : Bool) : Except ParseFailure (List String) :=
  if obsidian then rootCandidates tools target else .ok []

def resolveLocalResource (sourcePath target : String) (files : Files) (obsidian : Bool) :
    Except ParseFailure String := do
  let roots ← linkRoots tools target obsidian
  let candidate ← safeLocalTarget tools sourcePath target
  let expanded := (roots ++ [candidate]).flatMap (expandCandidate sourcePath)
  match expanded.find? fun path => (files.map Prod.fst).contains path with
  | some path => .ok path
  | none => .error (.parse ("referenced local resource '" ++ target ++ "' from '" ++ sourcePath ++
      "' is missing"))

/-! ## Resources -/

structure ResourceAccumulator where
  kind : ResourceKind
  labels : List String
  sourcePaths : List String

/-- The resources found so far, one item for each key. -/
abbrev Accumulated := List (String × ResourceAccumulator)

/-- `add` -/
def addResource (accumulated : Accumulated) (key : String) (kind : ResourceKind)
    (label sourcePath : String) : Except ParseFailure Accumulated :=
  let existing := (Dict.get? accumulated key).getD ⟨kind, [], []⟩
  if existing.kind ≠ kind then .error (.parse ("resource '" ++ key ++ "' has conflicting kinds"))
  else .ok (Dict.set accumulated key
    ⟨kind, existing.labels ++ [cleanText tools label], existing.sourcePaths ++ [sourcePath]⟩)

/-- `except RoadmapParseError`: a link that does not resolve is left out unless
it has to be local. -/
def resolvedOr (requireLocal : Bool) (accumulated : Accumulated)
    (resolved : Except ParseFailure String)
    (next : String → Except ParseFailure Accumulated) : Except ParseFailure Accumulated :=
  match resolved with
  | .ok path => next path
  | .error (.parse message) =>
    if requireLocal then .error (.parse message) else .ok accumulated
  | .error failure => .error failure

def addWikiLink (files : Files) (requireLocal : Bool) (sourcePath : String)
    (accumulated : Accumulated) (link : String × Option String) :
    Except ParseFailure Accumulated :=
  let target := cleanText tools link.1
  let label := match link.2 with
    | none => target
    | some label => if label = "" then target else label
  resolvedOr requireLocal accumulated (resolveLocalResource tools sourcePath target files true)
    fun resolved => addResource tools accumulated resolved .localFile label sourcePath

def addMarkdownLink (files : Files) (requireLocal : Bool) (sourcePath : String)
    (accumulated : Accumulated) (link : String × String) : Except ParseFailure Accumulated :=
  match tools.urlsplit link.2 with
  | .error message => .error (.value message)
  | .ok (scheme, netloc) =>
    if scheme ≠ "" then
      if scheme ≠ "http" ∧ scheme ≠ "https" ∨ netloc = "" then
        .error (.parse ("unsupported resource URL '" ++ link.2 ++ "'"))
      else addResource tools accumulated link.2 .external link.1 sourcePath
    else
      resolvedOr requireLocal accumulated
        (resolveLocalResource tools sourcePath link.2 files false)
        fun resolved => addResource tools accumulated resolved .localFile link.1 sourcePath

def addFileResources (files : Files) (requireLocal : Bool) (accumulated : Accumulated)
    (file : String × String) : Except ParseFailure Accumulated := do
  let visible := "\n".intercalate (visibleLines tools file.2)
  let accumulated ← (tools.wikiLinks visible).foldlM
    (addWikiLink tools files requireLocal file.1) accumulated
  (tools.markdownLinks (tools.withoutWikiLinks visible)).foldlM
    (addMarkdownLink tools files requireLocal file.1) accumulated

def resources (files : Files) (markdown : Markdown) (requireLocal : Bool) :
    Except ParseFailure (List NormalizedResource) := do
  let accumulated ← markdown.foldlM (addFileResources tools files requireLocal) []
  let sorted := accumulated.insertionSort fun first second => first.1 ≤ second.1
  return sorted.map fun item =>
    ⟨item.1, item.2.kind, Dict.sortedSet item.2.labels, Dict.sortedSet item.2.sourcePaths⟩

/-! ## Exit criteria -/

def criteriaFrom (required : Bool) (activeLevel : Option Nat) : List String → List String
  | [] => []
  | line :: rest =>
    match tools.heading line with
    | some (level, heading) =>
      let title := tools.casefold (cleanText tools heading)
      if title = "month 1 exit criteria" ∨
          required = false ∧ title.endsWith "exit criteria" then
        criteriaFrom required (some level) rest
      else if activeLevel.any fun active => level ≤ active then
        criteriaFrom required none rest
      else criteriaFrom required activeLevel rest
    | none =>
      match activeLevel, tools.listItem line with
      | some _, some item => cleanText tools item :: criteriaFrom required activeLevel rest
      | _, _ => criteriaFrom required activeLevel rest

/-- `sources.setdefault(criterion, set()).add(path)` -/
def addCriterion (path : String) (sources : List (String × List String)) (criterion : String) :
    List (String × List String) :=
  Dict.set sources criterion ((Dict.get? sources criterion).getD [] ++ [path])

def exitCriteria (markdown : Markdown) (required : Bool) :
    Except ParseFailure (List NormalizedExitCriterion) :=
  let sources := markdown.foldl (fun sources file =>
    (criteriaFrom tools required none (visibleLines tools file.2)).foldl
      (addCriterion file.1) sources) []
  if sources = [] ∧ required = true then
    .error (.parse "roadmap package must define Month 1 exit criteria")
  else
    .ok ((sources.insertionSort fun first second => first.1 ≤ second.1).map fun item =>
      ⟨item.1, Dict.sortedSet item.2⟩)

/-! ## The interview queue -/

def sectionRest (level : Nat) : List String → List String
  | [] => []
  | line :: rest =>
    match tools.heading line with
    | some (other, _) => if other ≤ level then [] else line :: sectionRest level rest
    | none => line :: sectionRest level rest

/-- `_section_lines` -/
def sectionFrom (heading : String) : List String → List String
  | [] => []
  | line :: rest =>
    match tools.heading line with
    | some (level, title) =>
      if cleanText tools title = heading then sectionRest tools level rest
      else sectionFrom heading rest
    | none => sectionFrom heading rest

def sectionLines (content heading : String) : List String :=
  sectionFrom tools heading (visibleLines tools content)

def queueField (fields : List (String × String)) (entry : String) : List (String × String) :=
  match tools.listItem entry with
  | none => fields
  | some item =>
    match item.splitOn ":" with
    | key :: value :: more =>
      Dict.set fields (tools.casefold (cleanText tools key))
        (cleanText tools (":".intercalate (value :: more)))
    | _ => fields

/-- The queue items, by identifier. -/
abbrev Queue := List (String × List (String × String))

def queueLine (content : String) (items : Queue) (line : String) : Queue :=
  let title := match tools.heading line with
    | none => ""
    | some heading => cleanText tools heading.2
  match tools.queueId title with
  | none => items
  | some id =>
    if (Dict.get? items id).isSome then items
    else
      let fields := (sectionLines tools content title).foldl (queueField tools) []
      if (Dict.get? fields "exact question").isSome then Dict.set items id fields else items

def interviewQueue (markdown : Markdown) : Queue :=
  markdown.foldl (fun items file =>
    (visibleLines tools file.2).foldl (queueLine tools file.2) items) []

def queueText (fields : List (String × String)) (name : String) : Option String :=
  (Dict.get? fields name).filter fun text => text ≠ ""

def queueObjective (queue : Queue) (markdown : Markdown) (file heading : String) :
    Option String := do
  let content := (Dict.get? markdown file).getD ""
  let [id] := ((sectionLines tools content heading).flatMap tools.queueIds).dedup | none
  let fields := (Dict.get? queue id).getD []
  let question ← queueText fields "exact question"
  let parts := [id ++ ": " ++ question] ++
    ((queueText fields "default audience").map fun text => "Audience: " ++ text ++ ".").toList ++
    ((queueText fields "answer limit").map fun text => "Answer limit: " ++ text ++ ".").toList
  let objective := " ".intercalate parts
  if objective.utf8ByteSize ≤ 512 then some objective else none

/-! ## The scheme -/

def schemeFromPayload (payload : tools.Payload) : Except ParseFailure SchemeFile :=
  if tools.isMapping payload then
    (tools.validateScheme payload).mapError fun error =>
      .parse ("roadmap.yaml " ++ error.1 ++ ": " ++ error.2)
  else .error (.parse "roadmap.yaml must be a mapping")

/-- `parse_scheme_text`, whose own errors become parse errors. -/
def parseSchemeText (text : String) : Except ParseFailure SchemeFile :=
  if maxSchemeBytes < text.utf8ByteSize then .error (.parse "roadmap.yaml exceeds 2 MiB")
  else
    match tools.safeLoad text with
    | .error (.yaml message) =>
      .error (.parse ("roadmap.yaml is not valid YAML: " ++ message))
    | .error (.value message) => .error (.value message)
    | .ok payload => schemeFromPayload tools payload

def blockIssues (files : Files) (markdown : Markdown) (config : ReleaseConfig)
    (seen : List String) (block : SchemeBlock) : List String :=
  let named := "block '" ++ block.id ++ "': "
  let count := headingCount tools markdown block.source.file block.source.heading
  (if block.id ∈ seen then ["id '" ++ block.id ++ "' is duplicated"] else []) ++
    (if (config.contract? block.type).isNone then
      [named ++ "type '" ++ block.type ++ "' is not a contract"] else []) ++
    (if block.type ≠ "correction" ∧ (config.bundle.exercise block.exerciseType).isNone then
      [named ++ "exercise '" ++ block.exerciseType ++ "' is unknown"] else []) ++
    (if (files.map Prod.fst).contains block.source.file = false then
      [named ++ "file '" ++ block.source.file ++ "' is missing"]
    else if count = 0 then
      [named ++ "heading '" ++ block.source.heading ++ "' is missing from '" ++
        block.source.file ++ "'"]
    else if 1 < count then
      [named ++ "heading '" ++ block.source.heading ++ "' appears " ++ toString count ++
        " times in '" ++ block.source.file ++ "'"]
    else [])

def blocksIssues (files : Files) (markdown : Markdown) (config : ReleaseConfig) :
    List String → List SchemeBlock → List String × List String
  | seen, [] => ([], seen)
  | seen, block :: rest =>
    let (issues, seen') := blocksIssues files markdown config (block.id :: seen) rest
    (blockIssues tools files markdown config seen block ++ issues, seen')

def dayIssues (day : SchemeDay) : List String :=
  let cap := if day.kind = .assessment then assessmentMaxMinutes else weekdayMaxMinutes
  let total := (day.blocks.map SchemeBlock.minutes).sum
  (if cap < day.budgetMinutes then
    ["day '" ++ day.id ++ "' budget " ++ toString day.budgetMinutes ++ " exceeds the " ++
      day.kind.text ++ " maximum of " ++ toString cap ++ " minutes"] else []) ++
    (if total ≠ day.budgetMinutes then
      ["day '" ++ day.id ++ "' block minutes " ++ toString total ++ " do not equal budget " ++
        toString day.budgetMinutes] else []) ++
    (if 1 < day.blocks.countP fun block => block.type = "correction" then
      ["day '" ++ day.id ++ "' has more than one correction block"] else [])

def daysIssues (files : Files) (markdown : Markdown) (config : ReleaseConfig) :
    List String → List SchemeDay → List String
  | _, [] => []
  | seen, day :: rest =>
    let (issues, seen') := blocksIssues tools files markdown config (day.id :: seen) day.blocks
    (if day.id ∈ seen then ["id '" ++ day.id ++ "' is duplicated"] else []) ++ issues ++
      dayIssues day ++ daysIssues files markdown config seen' rest

def validateScheme (scheme : SchemeFile) (files : Files) (config : ReleaseConfig) :
    Except ParseFailure (List String) := do
  let markdown ← decodeMarkdown tools files
  return (if scheme.restWeekdayIndexes.length = 7 then
      ["rest_weekdays leave no study weekday"] else []) ++
    daysIssues tools files markdown config [] scheme.days

/-! ## The roadmap -/

/-- `_contract` -/
def contractOf (task : NormalizedTask) : NormalizedTaskContract where
  stableId := task.stableId
  requiredOutput := task.requiredOutput
  passCriteria := task.passCriteria
  evidenceRequirements := task.evidenceRequirements
  procedure := task.procedure
  constraints := task.constraints
  correctionSelection := task.correctionSelection

def studyDaysPerWeek : Nat := 6

def defaultCorrection : NormalizedCorrectionSelection where
  source := "due_corrections"
  maximumItems := 1
  allowedKinds := ["spoken_attempt_b", "targeted_sql_correction", "written_attempt_b"]
  inheritsCorePrompt := true
  inheritsOriginalExercise := true
  inheritsOriginalMappingVersion := true
  noAttemptC := true
  skillLevelEffect := "none"

structure TaskSources where
  config : ReleaseConfig
  markdown : Markdown
  queue : Queue

def blockObjective (sources : TaskSources) (block : SchemeBlock) : String :=
  if block.type = "communication" then
    ((queueObjective tools sources.queue sources.markdown block.source.file
      block.source.heading).filter fun objective => objective ≠ "").getD block.objective
  else block.objective

/-- `None if is_correction else config.exercise(block.exercise_type)` -/
def blockExercise (config : ReleaseConfig) (block : SchemeBlock) :
    Except ParseFailure (Option ExerciseTypeConfig) :=
  if block.type = "correction" then .ok none
  else
    match config.bundle.exercise block.exerciseType with
    | none => .error (.key block.exerciseType)
    | some exercise => .ok (some exercise)

/-- `block.allowed_ai_role or default_ai_role(block.type)` -/
def blockRole (block : SchemeBlock) : Except ParseFailure String :=
  match block.allowedAiRole with
  | some role => .ok (aiRoleText role)
  | none => defaultAiRole block.type

def blockTask (sources : TaskSources) (dayNumber order : Nat) (block : SchemeBlock) :
    Except ParseFailure NormalizedTask := do
  let some contract := sources.config.contract? block.type | throw (.key block.type)
  let exercise ← blockExercise sources.config block
  let name ← blockName block.type
  let role ← blockRole block
  return {
    stableId := block.id
    month := 1
    week := ((dayNumber - 1) / studyDaysPerWeek + 1 : Nat)
    day := dayNumber
    block := name
    order := order
    sourcePath := block.source.file
    sourceHeading := block.source.heading
    exerciseType := if block.type = "correction" then none else some block.exerciseType
    mappingVersion := exercise.map ExerciseTypeConfig.mappingVersion
    required := block.required && block.type != "correction"
    timeboxMinutes := block.minutes
    objective := blockObjective tools sources block
    requiredOutput := contract.requiredOutput
    passCriteria := contract.passCriteria
    evidenceRequirements := contract.evidenceRequirements
    procedure := contract.procedure.map fun step =>
      ⟨step.phase, step.minutes.map Int.ofNat, step.requirement⟩
    constraints := contract.constraints
    correctionSelection := if block.type = "correction" then some defaultCorrection else none
    allowedAiRole := role }

def dayTasks (sources : TaskSources) (day : SchemeDay × Nat) :
    Except ParseFailure (List NormalizedTask) :=
  (day.1.blocks.zipIdx 1).mapM fun block => blockTask tools sources day.2 block.2 block.1

def schemePayload (scheme : SchemeFile) : List (String × Json) :=
  [("rest_weekdays", .array (scheme.restWeekdayIndexes.map fun index => integer index)),
    ("program", .object [("key", .string scheme.program.key),
      ("title", .string scheme.program.title)]),
    ("lineage", optional (fun version => .object [("predecessor_version", .string version)])
      scheme.predecessorVersion),
    ("days", .object ((scheme.days.zipIdx 1).map fun day =>
      (toString day.2, .object [("id", .string day.1.id), ("kind", .string day.1.kind.text),
        ("budget_minutes", integer day.1.budgetMinutes)])))]

def assembleRoadmap (scheme : SchemeFile) (tasks : List NormalizedTask)
    (resources : List NormalizedResource) (exitCriteria : List NormalizedExitCriterion) :
    ParsedRoadmap :=
  let roadmap : ParsedRoadmap := {
    schemaVersion := 2
    roadmapVersion := scheme.program.key
    tasks := tasks
    contracts := tasks.map contractOf
    resources := resources
    exitCriteria := exitCriteria
    normalizedHash := ""
    scheme := some (schemePayload scheme) }
  { roadmap with normalizedHash := payloadHash roadmap.payloadDict }

def packageScheme (payload : Bytes) : Except ParseFailure SchemeFile :=
  match decodeUtf8 payload with
  | none => .error (.parse (tools.undecodable payload))
  | some text => parseSchemeText tools text

/-- `SCHEME_FILE_NAME` -/
def schemeFile : String := "roadmap.yaml"

/-- `parse_roadmap_scheme`, on the bytes of `roadmap.yaml`. -/
def parseRoadmapScheme (files : Files) (config : ReleaseConfig) (payload : Bytes) :
    Except ParseFailure ParsedRoadmap := do
  let scheme ← packageScheme tools payload
  let issues ← validateScheme tools scheme files config
  raiseFirst [(!issues.isEmpty, .parse ("; ".intercalate issues))]
  let markdown ← decodeMarkdown tools files
  let sources : TaskSources := ⟨config, markdown, interviewQueue tools markdown⟩
  let tasks ← (scheme.days.zipIdx 1).mapM (dayTasks tools sources)
  let resources ← resources tools files markdown false
  let exitCriteria ← exitCriteria tools markdown false
  return assembleRoadmap scheme tasks.flatten resources exitCriteria

def parseRoadmap (files : Files) (config : ReleaseConfig) : Except ParseFailure ParsedRoadmap :=
  match Dict.get? files schemeFile with
  | none => .error (.parse "roadmap package must carry roadmap.yaml at its root")
  | some payload => parseRoadmapScheme tools files config payload

end TamForge.Roadmaps.Parsing
