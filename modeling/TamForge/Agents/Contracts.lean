import TamForge.Learning.Models

/-!
# Provenance contracts

The commands of `agents/contracts.py`, with their validators, the sensitivity
rule of `agents/classification.py` and the transitions of a model run.
-/

namespace TamForge.Agents

open Models

abbrev Key := String

/-- A SHA-256 digest in hexadecimal. -/
abbrev Hash := String

inductive ProvenanceError
  | invalidProvenance
  | immutableVersionConflict
  | provenanceNotFound
  | stateConflict
deriving DecidableEq

/-- `^[a-f0-9]{64}$` -/
def isHash (hash : Hash) : Bool :=
  hash.toList.length == 64 &&
    hash.toList.all fun c => c.isDigit || (decide ('a' ≤ c) && decide (c ≤ 'f'))

/-- `Count`: at most `2147483647`. -/
def isCount (n : Nat) : Bool :=
  decide (n ≤ 2147483647)

structure PinnedVersion where
  id : Nat
  contentHash : Hash

def PinnedVersion.valid (pin : PinnedVersion) : Bool :=
  decide (0 < pin.id) && isHash pin.contentHash

/-! ## References into a committed attempt -/

/-- `AttemptTextReference` of the protocol package. -/
structure AttemptTextReference where
  attemptId : Nat
  commitmentSha256 : Hash
  jsonPointer : String
  startCodepoint : Nat
  endCodepoint : Nat
deriving DecidableEq

/-- `(?:[^~]|~[01])*` -/
def escapedPointer : List Char → Bool
  | [] => true
  | ['~'] => false
  | '~' :: c :: rest => (c == '0' || c == '1') && escapedPointer rest
  | _ :: rest => escapedPointer rest

/-- `^/output/(?:[^~]|~[01])*$`, of at most 512 characters. -/
def isPointer (pointer : List Char) : Bool :=
  decide (pointer.length ≤ 512) && "/output/".toList.isPrefixOf pointer &&
    escapedPointer (pointer.drop 8)

def AttemptTextReference.valid (reference : AttemptTextReference) : Bool :=
  decide (0 < reference.attemptId) && isHash reference.commitmentSha256 &&
    isPointer reference.jsonPointer.toList &&
    decide (reference.startCodepoint ≤ 16 * 1024 * 1024) &&
    decide (reference.endCodepoint ≤ 16 * 1024 * 1024) &&
    decide (reference.startCodepoint < reference.endCodepoint)

inductive ContextReason
  | primaryEvidence | supportingEvidence | comparison
deriving DecidableEq

structure ContextInput where
  ordinal : Nat
  reason : ContextReason
  reference : AttemptTextReference
  preparedInputHash : Hash
deriving DecidableEq

def ContextInput.valid (item : ContextInput) : Bool :=
  decide (item.ordinal ≤ 63) && item.reference.valid && isHash item.preparedInputHash

/-! ## Classification -/

inductive SensitivityScope
  | releasable | redactionRequired | restricted
deriving DecidableEq

inductive ConsentBasis
  | learnerSubmission | explicitRelease | notGranted
deriving DecidableEq

inductive RedactionDecision
  | notRequired | pending | approved
deriving DecidableEq

structure SubmissionClassification where
  scope : SensitivityScope
  redaction : RedactionDecision
  consent : ConsentBasis

def SubmissionClassification.permitted (c : SubmissionClassification) : Bool :=
  decide (c.scope ≠ .restricted) && decide (c.consent ≠ .notGranted) &&
    match c.scope with
    | .redactionRequired =>
      decide (c.redaction = .approved) && decide (c.consent = .explicitRelease)
    | _ => decide (c.redaction = .notRequired)

/-- `_ORDER.index` -/
def SensitivityScope.order : SensitivityScope → Nat
  | .releasable => 0
  | .redactionRequired => 1
  | .restricted => 2

/-- `derive_submission_scope` of an attempt's own text, no artifact cited. -/
def deriveSubmissionScope : Learning.AttemptKind → SensitivityScope
  | .realInterview => .redactionRequired
  | _ => .releasable

def understates (declared : SubmissionClassification) (derived : SensitivityScope) : Bool :=
  decide (declared.scope.order < derived.order)

/-! ## Requests -/

structure RunRequest where
  ownerId : Nat
  invocationKey : Key
  activityId : Nat
  attempt : PinnedVersion
  prompt : PinnedVersion
  schemaVersion : PinnedVersion
  rubricBinding : PinnedVersion
  requestedModel : Key
  sdkVersion : Option Key
  cliVersion : Option Key
  jobId : Option Nat
  predecessor : Option PinnedVersion
  context : List ContextInput
  classification : SubmissionClassification

def RunRequest.orderedManifest (request : RunRequest) : Bool :=
  decide (request.context.map (·.ordinal) = List.range request.context.length) &&
    decide (request.context.map (·.reference)).Nodup &&
    request.context.all fun item =>
      decide (item.reference.attemptId = request.attempt.id) &&
        decide (item.reference.commitmentSha256 = request.attempt.contentHash)

/-- What `RunRequest.model_validate` accepts. -/
def RunRequest.valid (request : RunRequest) : Bool :=
  decide (0 < request.ownerId) && safeKey request.invocationKey &&
    decide (0 < request.activityId) && request.attempt.valid && request.prompt.valid &&
    request.schemaVersion.valid && request.rubricBinding.valid &&
    safeKey request.requestedModel && request.sdkVersion.all safeKey &&
    request.cliVersion.all safeKey && request.jobId.all (fun id => decide (0 < id)) &&
    request.predecessor.all PinnedVersion.valid &&
    decide (1 ≤ request.context.length) && decide (request.context.length ≤ 64) &&
    request.context.all ContextInput.valid && request.classification.permitted &&
    request.orderedManifest

/-! ## Lifecycle -/

inductive RunState
  | registered | running | succeeded | failed | cancelled
deriving DecidableEq

inductive Failure
  | invalidInput | permissionRequired | transientDependency | resourceExhausted
  | processingFailure | internalError | cancelled

inductive RetryDisposition
  | none | retryable | exhausted
deriving DecidableEq

structure Lifecycle where
  state : RunState
  elapsedMs : Nat
  resolvedModel : Option Key
  sdkVersion : Option Key
  cliVersion : Option Key
  outputHash : Option Hash
  errorCategory : Option Failure
  retryDisposition : RetryDisposition

def Lifecycle.coherent (event : Lifecycle) : Bool :=
  (if event.state = .running then
      event.resolvedModel.isSome && (event.sdkVersion.isSome || event.cliVersion.isSome)
    else
      event.resolvedModel.isNone && event.sdkVersion.isNone && event.cliVersion.isNone) &&
    ((event.state = .failed || event.state = .cancelled) == event.errorCategory.isSome) &&
    (event.state = .succeeded || event.outputHash.isNone) &&
    (event.state = .failed || event.retryDisposition = .none)

/-- What `Lifecycle.model_validate` accepts; no event is `registered`. -/
def Lifecycle.valid (event : Lifecycle) : Bool :=
  decide (event.state ≠ .registered) && isCount event.elapsedMs &&
    event.resolvedModel.all safeKey && event.sdkVersion.all safeKey &&
    event.cliVersion.all safeKey && event.outputHash.all isHash && event.coherent

/-- The table of `validate_transition`. -/
def RunState.allowed : RunState → List RunState
  | .registered => [.running, .failed, .cancelled]
  | .running => [.succeeded, .failed, .cancelled]
  | _ => []

def validateTransition (previous : RunState) (event : Lifecycle) : Except ProvenanceError Unit :=
  if event.state ∈ previous.allowed then .ok () else .error .stateConflict

/-! ## Tool audits -/

inductive ToolPhase
  | request | succeeded | failed | cancelled
deriving DecidableEq

structure ToolAudit where
  callKey : Key
  phase : ToolPhase
  toolName : Key
  toolVersion : Key
  schemaHash : Hash
  elapsedMs : Nat
  contextOrdinals : List Nat
  itemCount : Option Nat
  errorCategory : Option Failure

/-- What `ToolAudit.model_validate` accepts, `coherent` included. -/
def ToolAudit.valid (audit : ToolAudit) : Bool :=
  safeKey audit.callKey && safeKey audit.toolName && safeKey audit.toolVersion &&
    isHash audit.schemaHash && isCount audit.elapsedMs &&
    audit.contextOrdinals.all (fun ordinal => decide (ordinal ≤ 63)) &&
    decide (audit.contextOrdinals.length ≤ 64) && audit.itemCount.all isCount &&
    decide audit.contextOrdinals.Nodup &&
    ((audit.phase = .failed || audit.phase = .cancelled) == audit.errorCategory.isSome)

end TamForge.Agents
