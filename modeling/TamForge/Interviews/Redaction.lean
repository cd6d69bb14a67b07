import Mathlib.Data.List.Nodup
import TamForge.Models.Base
import TamForge.Models.Text
import TamForge.ProofSupport.Checks
import TamForge.ProofSupport.Ranks

/-!
# Redacting and releasing an interview

The permission to record an interview and its lock
(`tamforge_protocol/interviews.py`), and the redaction and the release of what
was said (`interviews/redaction.py`).
-/

namespace TamForge.Interviews

open Models ProofSupport

inductive InterviewKind where
  | practice | mock | real
deriving DecidableEq

inductive PermissionScope where
  | recordAudio | storeTranscript | releaseToClaude
deriving DecidableEq

inductive LockReason where
  | none | notApplicable | permissionMissing | permissionRevoked | scopeNotGranted

def LockReason.text : LockReason → String
  | .none => "none"
  | .notApplicable => "not_applicable"
  | .permissionMissing => "permission_missing"
  | .permissionRevoked => "permission_revoked"
  | .scopeNotGranted => "scope_not_granted"

inductive LockState where
  | locked | unlocked
deriving DecidableEq

structure Interview where
  interviewId : Nat
  kind : InterviewKind

/-- `self.kind in OPPORTUNITY_LINKED_KINDS` -/
def Interview.isReal (interview : Interview) : Bool := interview.kind = .real

structure RecordingPermission where
  interviewId : Nat
  attestedAt : Instant
  scopes : List PermissionScope
  revokedAt : Option Instant := none
  scopes_bounded : 1 ≤ scopes.length ∧ scopes.length ≤ 8
  scopes_nodup : scopes.Nodup
  revoked_after : ∀ revoked, revokedAt = some revoked → attestedAt ≤ revoked

def RecordingPermission.activeAt (permission : RecordingPermission) (moment : Instant) : Bool :=
  match permission.revokedAt with
  | none => true
  | some revoked => moment < revoked

def recordingLock (interview : Interview) (permission : Option RecordingPermission)
    (scope : PermissionScope) (now : Instant) : LockState × LockReason :=
  if !interview.isReal then (.locked, .notApplicable)
  else
    match permission with
    | none => (.locked, .permissionMissing)
    | some permission =>
      if permission.interviewId ≠ interview.interviewId then (.locked, .permissionMissing)
      else if !permission.activeAt now then (.locked, .permissionRevoked)
      else if scope ∉ permission.scopes then (.locked, .scopeNotGranted)
      else (.unlocked, .none)

structure RedactionError where
  message : String

inductive RedactionCategory where
  | personName | companyName | contactDetail | accountIdentifier | financialFigure
deriving DecidableEq

/-- A span covers a nonempty range; its `end` is the position behind it. -/
structure RedactionSpan where
  start : Nat
  stop : Nat
  category : RedactionCategory
  nonempty : start < stop
deriving DecidableEq

def redactionPlaceholder : PyString := PyString.ofString "[redacted]"

/-- `any(later.start < earlier.end for earlier, later in zip(ordered, ordered[1:]))` -/
def overlapping (ordered : List RedactionSpan) : Bool :=
  (ordered.zip ordered.tail).any fun (earlier, later) => later.start < earlier.stop

def hide (span : RedactionSpan) (redacted : PyString) : PyString :=
  redacted.take span.start ++ redactionPlaceholder ++ redacted.drop span.stop

def redact (text : PyString) (spans : List RedactionSpan) : Except RedactionError PyString :=
  let ordered := sortedBy RedactionSpan.start spans
  if overlapping ordered then .error ⟨"spans overlap, so what would be sent is ambiguous"⟩
  else if ordered.getLast?.any fun last => text.length < last.stop then
    .error ⟨"a span runs past the end of the text"⟩
  else .ok (ordered.reverse.foldl (fun redacted span => hide span redacted) text)

structure RedactionPreview where
  interviewId : Nat
  ownerId : Nat
  sourceSha256 : String
  previewSha256 : String
  generatedAt : Instant
  hashes_pinned : sourceSha256.length = 64 ∧ previewSha256.length = 64

structure ReleaseApproval where
  previewSha256 : String
  approvedBy : String
  approvedAt : Instant
  hash_named : previewSha256.length = 64
  approver_named : isBlank approvedBy = false

structure ReleaseRecord where
  interviewId : Nat
  ownerId : Nat
  sourceSha256 : String
  releasedSha256 : String
  approvedBy : String
  releasedAt : Instant

def releaseToClaude (interview : Interview) (ownerId : Nat)
    (permission : Option RecordingPermission) (preview : RedactionPreview)
    (approval : ReleaseApproval) (now : Instant) : Except RedactionError ReleaseRecord := do
  let lock := recordingLock interview permission .releaseToClaude now
  raiseFirst [
    (preview.interviewId ≠ interview.interviewId || preview.ownerId ≠ ownerId,
      ⟨"that preview belongs to another interview or owner"⟩),
    (lock.1 ≠ .unlocked, ⟨"release is not permitted: " ++ lock.2.text⟩),
    (approval.previewSha256 ≠ preview.previewSha256,
      ⟨"the approval does not match this preview"⟩),
    (approval.approvedAt < preview.generatedAt,
      ⟨"a preview is approved after it is generated, not before"⟩)]
  return {
    interviewId := interview.interviewId
    ownerId
    sourceSha256 := preview.sourceSha256
    releasedSha256 := preview.previewSha256
    approvedBy := approval.approvedBy
    releasedAt := now }

end TamForge.Interviews
