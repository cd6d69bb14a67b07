import Mathlib.Data.List.Sort
import TamForge.Learning.Contracts

/-!
# Activity artifacts

`learning/artifacts.py` with the key rules of `storage/models.py`: what an
upload may be, what a stored object must look like, and what a commitment
covers.
-/

namespace TamForge.Learning

open Models ProofSupport

/-- `ArtifactValidationError`, with its message. -/
structure ArtifactValidationError where
  message : String

/-- `LINK_ROLES` -/
inductive LinkRole
  | originalOutput | presentationAudio | transcript | analysis | supporting | correction
deriving DecidableEq

/-- `ARTIFACT_CLASSES` -/
inductive ArtifactClass
  | originalAudio | transcript | writtenOutput | sqlOutput | recallNote | caseArtifact
  | analysis | exported
deriving DecidableEq

def ArtifactClass.text : ArtifactClass → String
  | originalAudio => "original_audio"
  | transcript => "transcript"
  | writtenOutput => "written_output"
  | sqlOutput => "sql_output"
  | recallNote => "recall_note"
  | caseArtifact => "case_artifact"
  | analysis => "analysis"
  | exported => "export"

/-- `^[0-9a-f]{64}$` -/
def isSha256 (value : String) : Bool :=
  value.toList.all (fun c => c.isDigit || (decide ('a' ≤ c) && decide (c ≤ 'f'))) &&
    decide (value.length = 64)

def isControl (c : Char) : Bool :=
  decide (c.toNat < 32) || decide (c.toNat = 127)

/-- `^[^/\\\x00-\x1f\x7f]{1,512}$` -/
def isFilename (value : String) : Bool :=
  value.toList.all (fun c => c != '/' && c != '\\' && !isControl c) &&
    decide (0 < value.length) && decide (value.length ≤ 512)

/-- `[a-z0-9.+-]` -/
def isTypeChar (c : Char) : Bool :=
  c.isLower || c.isDigit || c == '.' || c == '+' || c == '-'

/-- One side of a content type: `[a-z0-9][a-z0-9.+-]*`. -/
def isTypePart (part : List Char) : Bool :=
  match part with
  | [] => false
  | first :: rest => (first.isLower || first.isDigit) && rest.all isTypeChar

/-- `^[a-z0-9][a-z0-9.+-]*/[a-z0-9][a-z0-9.+-]*$` -/
def isContentType (value : String) : Bool :=
  match value.toList.splitOn '/' with
  | [left, right] => isTypePart left && isTypePart right
  | _ => false

/-- `validate_content_type` of the storage boundary. -/
def storableContentType (value : String) : Bool :=
  decide (0 < value.length) && decide (value.length ≤ 255) && !value.toList.any isControl

/-- `build_object_key` for a digest that passed `validate_sha256`. -/
def buildObjectKey (artifactClass : ArtifactClass) (ownerId activityId : Nat)
    (digest : String) : String :=
  artifactClass.text ++ "/" ++ toString ownerId ++ "/activity-" ++
    toString activityId ++ "/" ++ digest

structure ArtifactUploadIntent where
  ownerId : Nat
  activityId : Nat
  artifactClass : ArtifactClass
  objectKey : String
  sha256 : String
  byteLength : Nat
  contentType : String
  originalFilename : String
  metadata : List (String × String)

def buildUploadIntent (ownerId activityId : Nat) (artifactClass : ArtifactClass)
    (sha256 : String) (byteLength : Nat) (contentType originalFilename : String) :
    Except ArtifactValidationError ArtifactUploadIntent := do
  raiseFirst [
    (decide (ownerId = 0) || decide (activityId = 0),
      ⟨"artifact owner or activity is invalid"⟩),
    (!isFilename originalFilename || isBlank originalFilename ||
        decide (512 < originalFilename.utf8ByteSize),
      ⟨"artifact filename is invalid"⟩),
    (!isSha256 sha256 || !storableContentType contentType,
      ⟨"artifact upload metadata is invalid"⟩),
    (decide (128 < contentType.utf8ByteSize), ⟨"artifact content type is too long"⟩),
    (!isContentType contentType, ⟨"artifact content type is invalid"⟩)]
  return {
    ownerId := ownerId, activityId := activityId, artifactClass := artifactClass,
    objectKey := buildObjectKey artifactClass ownerId activityId sha256, sha256 := sha256,
    byteLength := byteLength, contentType := contentType,
    originalFilename := originalFilename,
    metadata := [("activity-id", toString activityId), ("owner-id", toString ownerId)] }

structure StoredObject where
  key : String
  sha256 : String
  byteLength : Nat
  contentType : String
  metadata : List (String × String)

def StoredObject.tag? (stored : StoredObject) (name : String) : Option String :=
  (stored.metadata.find? fun item => item.1 = name).map Prod.snd

def verifyConfirmRequest (intent : ArtifactUploadIntent) (objectKey : String) :
    Except ArtifactValidationError Unit :=
  raiseFirst [(objectKey != intent.objectKey,
    ⟨"confirmation requires the server-generated object key"⟩)]

def verifyStoredObject (intent : ArtifactUploadIntent) (stored : StoredObject) :
    Except ArtifactValidationError Unit :=
  raiseFirst [(stored.key != intent.objectKey || stored.sha256 != intent.sha256 ||
      stored.byteLength != intent.byteLength || stored.contentType != intent.contentType ||
      intent.metadata.any fun item => stored.tag? item.1 != some item.2,
    ⟨"uploaded object does not match the confirmed intent"⟩)]

structure ArtifactCommitment where
  artifactId : Nat
  sha256 : String
  linkRole : LinkRole
deriving DecidableEq

/-- `ArtifactCommitment.__post_init__` -/
def ArtifactCommitment.check (commitment : ArtifactCommitment) :
    Except ArtifactValidationError Unit :=
  raiseFirst [
    (decide (commitment.artifactId = 0), ⟨"artifact commitment is invalid"⟩),
    (!isSha256 commitment.sha256, ⟨"artifact commitment hash is invalid"⟩)]

/-- What `build_commitment_digest` hashes; it stands for its SHA-256. -/
structure CommitmentHash where
  output : Json
  artifacts : List ArtifactCommitment
deriving DecidableEq

def LinkRole.text : LinkRole → String
  | originalOutput => "original_output"
  | presentationAudio => "presentation_audio"
  | transcript => "transcript"
  | analysis => "analysis"
  | supporting => "supporting"
  | correction => "correction"

def buildCommitmentDigest (output : ValidatedOutput) (artifacts : List ArtifactCommitment) :
    Except ArtifactValidationError CommitmentHash := do
  let manifest := artifacts.insertionSort fun a b => a.artifactId < b.artifactId ∨
    a.artifactId = b.artifactId ∧ a.linkRole.text ≤ b.linkRole.text
  raiseFirst [(!decide ((manifest.map fun item => (item.artifactId, item.linkRole)).Nodup),
    ⟨"artifact commitment contains duplicate links"⟩)]
  return { output := output.canonicalPayload.canonical, artifacts := manifest }

end TamForge.Learning
