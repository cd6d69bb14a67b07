import Mathlib.Data.Prod.Lex
import TamForge.Learning.Artifacts
import TamForge.Models.CanonicalJson
import TamForge.ProofSupport.Dicts
import TamForge.ProofSupport.Ranks

/-!
# Exports, their restore and their projection

The manifest of an export and its verification (`tamforge_protocol/exports.py`),
the dry run and the restore (`exports/import_restore.py`), and the OKF projection
(`exports/okf.py`).
-/

namespace TamForge.Exports

open Models ProofSupport

inductive ArtifactKind where
  | recording | transcript | attempt | analysis | evidenceEvent | report | opportunity | interview

def ArtifactKind.text : ArtifactKind → String
  | .recording => "recording"
  | .transcript => "transcript"
  | .attempt => "attempt"
  | .analysis => "analysis"
  | .evidenceEvent => "evidence_event"
  | .report => "report"
  | .opportunity => "opportunity"
  | .interview => "interview"

inductive RelationKind where
  | transcribes | attemptedIn | judges | evidences | belongsTo | supersedes

def RelationKind.text : RelationKind → String
  | .transcribes => "transcribes"
  | .attemptedIn => "attempted_in"
  | .judges => "judges"
  | .evidences => "evidences"
  | .belongsTo => "belongs_to"
  | .supersedes => "supersedes"

structure ExportError where
  message : String

/-- `^[^/][^\\]*$`, of at most 512 characters -/
def isPath (path : String) : Bool :=
  match path.toList with
  | [] => false
  | first :: rest => first ≠ '/' && rest.all (· ≠ '\\') && decide (rest.length < 512)

structure ExportedArtifact where
  artifactId : Nat
  kind : ArtifactKind
  path : String
  sha256 : String
  byteLength : Nat
  id_pos : 0 < artifactId
  path_valid : isPath path = true
  hash_valid : Learning.isSha256 sha256 = true

structure ExportedRelation where
  subjectId : Nat
  relation : RelationKind
  objectId : Nat
  not_itself : subjectId ≠ objectId

structure ExportManifest where
  artifacts : List ExportedArtifact
  relations : List ExportedRelation
  artifacts_bounded : artifacts.length ≤ 100000
  relations_bounded : relations.length ≤ 1000000
  ids_nodup : (artifacts.map ExportedArtifact.artifactId).Nodup
  paths_nodup : (artifacts.map ExportedArtifact.path).Nodup
  relations_present : ∀ relation ∈ relations,
    relation.subjectId ∈ artifacts.map ExportedArtifact.artifactId ∧
      relation.objectId ∈ artifacts.map ExportedArtifact.artifactId

def ExportManifest.artifact (manifest : ExportManifest) (artifactId : Nat) :
    Except ExportError ExportedArtifact :=
  match manifest.artifacts.find? (·.artifactId = artifactId) with
  | some artifact => .ok artifact
  | none => .error ⟨"this export does not contain that artifact"⟩

/-! ## Verification -/

section Verify

variable (digests : List (String × String)) (sizes : List (String × Int))

/-- One turn of the loop of `verify`. -/
def verifyArtifact (artifact : ExportedArtifact) : Except ExportError Unit :=
  match Dict.get? digests artifact.path with
  | none => .error ⟨"missing from the export: " ++ artifact.path⟩
  | some actual => raiseFirst [
      (actual ≠ artifact.sha256, ⟨"content does not match its hash: " ++ artifact.path⟩),
      (Dict.get? sizes artifact.path ≠ some (artifact.byteLength : Int),
        ⟨"length does not match the manifest: " ++ artifact.path⟩)]

/-- `set(digests) - {artifact.path for artifact in manifest.artifacts}` -/
def extraPaths (manifest : ExportManifest) : List String :=
  (digests.map Prod.fst).filter (· ∉ manifest.artifacts.map ExportedArtifact.path)

def verify (manifest : ExportManifest) : Except ExportError Unit := do
  manifest.artifacts.forM (verifyArtifact digests sizes)
  match sortedBy id (extraPaths digests manifest) with
  | [] => return
  | first :: _ => throw ⟨"present but unaccounted for: " ++ first⟩

end Verify

def exportFormat : String := "tamforge-export"

def exportVersion : String := "1"

def requireReadable (manifestFormat manifestVersion : String) : Except ExportError Unit :=
  raiseFirst [(manifestFormat ≠ exportFormat || manifestVersion ≠ exportVersion,
    ⟨"this reader does not know that export version"⟩)]

/-! ## Restore -/

inductive DryRunOutcome where
  | ready | rejected
deriving DecidableEq

structure DryRunReport where
  outcome : DryRunOutcome
  artifactCount : Nat
  relationCount : Nat
  problems : List String := []

def DryRunReport.ready (report : DryRunReport) : Bool := report.outcome = .ready

/-- `except ExportError as …: problems.append(str(…))` -/
def problemOf : Except ExportError Unit → List String
  | .ok () => []
  | .error error => [error.message]

def dryRun (manifest : ExportManifest) (digests : List (String × String))
    (sizes : List (String × Int)) (manifestFormat manifestVersion : String) : DryRunReport :=
  let problems := problemOf (requireReadable manifestFormat manifestVersion) ++
    problemOf (verify digests sizes manifest)
  { outcome := if problems = [] then .ready else .rejected
    artifactCount := manifest.artifacts.length
    relationCount := manifest.relations.length
    problems }

structure RestorePlan where
  manifest : ExportManifest
  approvedBy : String
  report : DryRunReport
  approver_named : isBlank approvedBy = false
  report_ready : report.ready = true

/-- The loop of `apply_restore`: the paths passed to `write`, and whether it raised.  What
`write` does may depend on the paths written before. -/
def writeAll (write : List String → String → Bool) (written : List String) :
    List ExportedArtifact → List String × Bool
  | [] => (written, false)
  | artifact :: rest =>
    if write written artifact.path then writeAll write (written ++ [artifact.path]) rest
    else (written ++ [artifact.path], true)

/-- The paths passed to `write`, and what is returned or raised. -/
def applyRestore (plan : RestorePlan) (write : List String → String → Bool) :
    List String × Except String (List String) :=
  let (passed, raised) := writeAll write [] plan.manifest.artifacts
  (passed, if raised then
      .error ("restore failed after " ++ toString (passed.length - 1) ++ " of " ++
        toString plan.manifest.artifacts.length ++ " artifacts")
    else .ok passed)

/-! ## OKF projection -/

/-- `NODE_TYPES` -/
def nodeType : ArtifactKind → String
  | .recording => "Recording"
  | .transcript => "Transcript"
  | .attempt => "Work"
  | .analysis => "Assessment"
  | .evidenceEvent => "Evidence"
  | .report => "Report"
  | .opportunity => "Opportunity"
  | .interview => "Interview"

/-- `EDGE_TYPES` -/
def edgeType : RelationKind → String
  | .transcribes => "derivedFrom"
  | .attemptedIn => "partOf"
  | .judges => "assesses"
  | .evidences => "supports"
  | .belongsTo => "partOf"
  | .supersedes => "replaces"

structure OkfNode where
  id : String
  type : String
  artifactId : Nat
  sha256 : String
  path : String

structure OkfEdge where
  type : String
  source : Nat
  target : Nat
deriving DecidableEq

structure Projection where
  nodes : List OkfNode
  edges : List OkfEdge

def nodeOf (artifact : ExportedArtifact) : OkfNode where
  id := "tamforge:" ++ artifact.kind.text ++ ":" ++ toString artifact.artifactId
  type := nodeType artifact.kind
  artifactId := artifact.artifactId
  sha256 := artifact.sha256
  path := artifact.path

/-- `_node` -/
def node (manifest : ExportManifest) (artifactId : Nat) : Except ExportError OkfNode :=
  (manifest.artifact artifactId).map nodeOf

/-- `_edge` -/
def edge (relation : ExportedRelation) : OkfEdge :=
  ⟨edgeType relation.relation, relation.subjectId, relation.objectId⟩

/-- `(item.subject_id, item.relation, item.object_id)` -/
def relationKey (relation : ExportedRelation) : ℕ ×ₗ String ×ₗ ℕ :=
  toLex (relation.subjectId, toLex (relation.relation.text, relation.objectId))

def project (manifest : ExportManifest) : Except ExportError Projection := do
  let nodes ← (sortedBy ExportedArtifact.artifactId manifest.artifacts).mapM fun artifact =>
    node manifest artifact.artifactId
  return ⟨nodes, (sortedBy relationKey manifest.relations).map edge⟩

def OkfNode.toJson (node : OkfNode) : Json :=
  .object [("id", .string node.id), ("type", .string node.type),
    ("provenance", .object [
      ("artifact_id", .number (toString node.artifactId)),
      ("sha256", .string node.sha256), ("path", .string node.path)])]

def OkfEdge.toJson (edge : OkfEdge) : Json :=
  .object [("type", .string edge.type), ("from", .number (toString edge.source)),
    ("to", .number (toString edge.target))]

def Projection.toJson (projection : Projection) : Json :=
  .object [("okf_version", .string "0.2"), ("profile", .string "tamforge"),
    ("nodes", .array (projection.nodes.map OkfNode.toJson)),
    ("edges", .array (projection.edges.map OkfEdge.toJson))]

def render (manifest : ExportManifest) : Except ExportError Bytes :=
  (project manifest).map fun projection => projection.toJson.canonicalPlain

def emptyHash : String := "e3b0c44298fc1c149afbf4c8996fb92427ae41e4649b934ca495991b7852b855"

end TamForge.Exports
