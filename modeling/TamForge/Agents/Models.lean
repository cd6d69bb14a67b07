import TamForge.Agents.Contracts
import TamForge.ProofSupport.Serial
import TamForge.Recordings.Schemas

/-!
# Provenance rows

The append-only tables of `agents/models.py`.  A row's `canonical_json` is the
canonical text of its payload, and its `content_hash` the hash of that text;
both are kept here as the payload, from which they are computed.  Every string
of a payload is printable ASCII, where the two ways of escaping agree.
-/

namespace TamForge.Agents

open Models ProofSupport
open Recordings (hexdigest jsonNat canonicalJsonBytes)

/-! ## Text of a payload -/

def jsonText : Option String → Json
  | none => .null
  | some text => .string text

def PinnedVersion.dump (pin : PinnedVersion) : Json :=
  .object [("id", jsonNat pin.id), ("content_hash", .string pin.contentHash)]

def ContextReason.text : ContextReason → String
  | .primaryEvidence => "primary_evidence"
  | .supportingEvidence => "supporting_evidence"
  | .comparison => "comparison"

def AttemptTextReference.dump (reference : AttemptTextReference) : Json :=
  .object [
    ("kind", .string "attempt_text"),
    ("attempt_id", jsonNat reference.attemptId),
    ("commitment_sha256", .string reference.commitmentSha256),
    ("json_pointer", .string reference.jsonPointer),
    ("start_codepoint", jsonNat reference.startCodepoint),
    ("end_codepoint", jsonNat reference.endCodepoint)]

def RunState.text : RunState → String
  | .registered => "registered"
  | .running => "running"
  | .succeeded => "succeeded"
  | .failed => "failed"
  | .cancelled => "cancelled"

def Failure.text : Failure → String
  | .invalidInput => "invalid_input"
  | .permissionRequired => "permission_required"
  | .transientDependency => "transient_dependency"
  | .resourceExhausted => "resource_exhausted"
  | .processingFailure => "processing_failure"
  | .internalError => "internal_error"
  | .cancelled => "cancelled"

def RetryDisposition.text : RetryDisposition → String
  | .none => "none"
  | .retryable => "retryable"
  | .exhausted => "exhausted"

def Lifecycle.dump (event : Lifecycle) : Json :=
  .object [
    ("state", .string event.state.text),
    ("elapsed_ms", jsonNat event.elapsedMs),
    ("resolved_model", jsonText event.resolvedModel),
    ("sdk_version", jsonText event.sdkVersion),
    ("cli_version", jsonText event.cliVersion),
    ("output_hash", jsonText event.outputHash),
    ("error_category", jsonText (event.errorCategory.map Failure.text)),
    ("retry_disposition", .string event.retryDisposition.text)]

def ToolPhase.text : ToolPhase → String
  | .request => "request"
  | .succeeded => "succeeded"
  | .failed => "failed"
  | .cancelled => "cancelled"

def ToolAudit.dump (audit : ToolAudit) : Json :=
  .object [
    ("call_key", .string audit.callKey),
    ("phase", .string audit.phase.text),
    ("tool_name", .string audit.toolName),
    ("tool_version", .string audit.toolVersion),
    ("schema_hash", .string audit.schemaHash),
    ("elapsed_ms", jsonNat audit.elapsedMs),
    ("context_ordinals", .array (audit.contextOrdinals.map jsonNat)),
    ("item_count", Recordings.jsonOption audit.itemCount),
    ("error_category", jsonText (audit.errorCategory.map Failure.text))]

/-! ## Payloads -/

structure ContextPayload where
  ownerId : Nat
  activityId : Nat
  sourceHash : Hash
  item : ContextInput
deriving DecidableEq

def ContextPayload.dump (payload : ContextPayload) : Json :=
  .object [
    ("format", jsonNat 1),
    ("kind", .string "context"),
    ("profile", .string "committed-attempt-text-v1"),
    ("owner_id", jsonNat payload.ownerId),
    ("activity_id", jsonNat payload.activityId),
    ("source_version", jsonNat 1),
    ("source_hash", .string payload.sourceHash),
    ("ordinal", jsonNat payload.item.ordinal),
    ("reason", .string payload.item.reason.text),
    ("reference", payload.item.reference.dump),
    ("prepared_input_hash", .string payload.item.preparedInputHash)]

structure RunPayload where
  ownerId : Nat
  invocationKey : Key
  activityId : Nat
  attempt : PinnedVersion
  prompt : PinnedVersion
  schemaVersion : PinnedVersion
  rubricBinding : PinnedVersion
  requestedModel : Key
  sdkVersion : Option Key
  cliVersion : Option Key
  jobId : Option Nat
  predecessor : Option PinnedVersion
  manifest : List Hash
  manifestHash : Hash

def RunPayload.dump (payload : RunPayload) : Json :=
  .object [
    ("format", jsonNat 1),
    ("kind", .string "run"),
    ("owner_id", jsonNat payload.ownerId),
    ("invocation_key", .string payload.invocationKey),
    ("activity_id", jsonNat payload.activityId),
    ("attempt", payload.attempt.dump),
    ("prompt", payload.prompt.dump),
    ("schema_version", payload.schemaVersion.dump),
    ("rubric_binding", payload.rubricBinding.dump),
    ("requested_model", .string payload.requestedModel),
    ("sdk_version", jsonText payload.sdkVersion),
    ("cli_version", jsonText payload.cliVersion),
    ("job_id", Recordings.jsonOption payload.jobId),
    ("predecessor", (payload.predecessor.map PinnedVersion.dump).getD .null),
    ("manifest", .array (payload.manifest.map .string)),
    ("manifest_hash", .string payload.manifestHash)]

structure EventPayload where
  ownerId : Nat
  runHash : Digest
  sequence : Nat
  expectedState : RunState
  event : Lifecycle

def EventPayload.dump (payload : EventPayload) : Json :=
  .object [
    ("format", jsonNat 1),
    ("kind", .string "event"),
    ("owner_id", jsonNat payload.ownerId),
    ("run_hash", .string (hexdigest payload.runHash)),
    ("sequence", jsonNat payload.sequence),
    ("expected_state", .string payload.expectedState.text),
    ("event", payload.event.dump)]

structure ToolPayload where
  ownerId : Nat
  runHash : Digest
  sequence : Nat
  audit : ToolAudit

def ToolPayload.dump (payload : ToolPayload) : Json :=
  .object [
    ("format", jsonNat 1),
    ("kind", .string "tool"),
    ("owner_id", jsonNat payload.ownerId),
    ("run_hash", .string (hexdigest payload.runHash)),
    ("sequence", jsonNat payload.sequence),
    ("audit", payload.audit.dump)]

/-- The hash of `_record_data`. -/
def recordHash (payload : Json) : Digest :=
  sha256 (canonicalJsonBytes payload)

def digest (payload : Json) : Hash :=
  hexdigest (recordHash payload)

/-! ## Rows -/

structure ModelRun where
  id : Nat
  ownerId : Nat
  payload : RunPayload
  contentHash : Digest

/-- The generated column `invocation_key` with the owner. -/
def ModelRun.key (run : ModelRun) : Nat × Key :=
  (run.ownerId, run.payload.invocationKey)

structure ModelRunContextItem where
  id : Nat
  ownerId : Nat
  runId : Nat
  payload : ContextPayload
  contentHash : Digest

/-- The generated column `ordinal`. -/
def ModelRunContextItem.ordinal (row : ModelRunContextItem) : Nat :=
  row.payload.item.ordinal

structure ModelRunEvent where
  id : Nat
  ownerId : Nat
  runId : Nat
  payload : EventPayload
  contentHash : Digest

/-- The generated column `sequence`. -/
def ModelRunEvent.sequence (row : ModelRunEvent) : Nat :=
  row.payload.sequence

structure AgentToolCall where
  id : Nat
  ownerId : Nat
  runId : Nat
  payload : ToolPayload
  contentHash : Digest

/-- The generated column `sequence`. -/
def AgentToolCall.sequence (row : AgentToolCall) : Nat :=
  row.payload.sequence

/-- The generated column `phase_slot`. -/
def AgentToolCall.phaseSlot (row : AgentToolCall) : Nat :=
  if row.payload.audit.phase = .request then 0 else 1

inductive AuditAction
  | submitted | refused
deriving DecidableEq

inductive AuditOutcome
  | succeeded | noop | denied

inductive AuditReasonCode
  | none | unauthorized | conflict
deriving DecidableEq

structure AuditEvent where
  ownerId : Nat
  action : AuditAction
  activityId : Nat
  idempotencyCorrelationHash : Digest
  outcome : AuditOutcome
  reasonCode : AuditReasonCode
  authorized : Bool
  replayed : Bool

/-! ## Other tables -/

/-- `original_text`, with the document that it is the text of, if any. -/
structure OriginalText where
  text : String
  document : Option Json
deriving DecidableEq

structure Attempt where
  id : Nat
  ownerId : Nat
  activityInstanceId : Nat
  attemptKind : Learning.AttemptKind
  commitmentHash : Digest
  originalText : Option OriginalText

structure PublishedVersion where
  id : Nat
  ownerId : Nat
  contentHash : Digest

/-- The rows of other tables that the ledger reads. -/
structure Surroundings where
  owners : List Nat
  /-- Owner and identity of each activity. -/
  activities : List (Nat × Nat)
  attempts : List Attempt
  promptVersions : List PublishedVersion
  outputSchemaVersions : List PublishedVersion
  rubricVersionHashes : List PublishedVersion
  /-- Owner and identity of each background job. -/
  backgroundJobs : List (Nat × Nat)

structure Tables where
  runs : Serial ModelRun
  contexts : Serial ModelRunContextItem
  events : Serial ModelRunEvent
  tools : Serial AgentToolCall
  audits : List AuditEvent

def Tables.empty : Tables where
  runs := Serial.empty
  contexts := Serial.empty
  events := Serial.empty
  tools := Serial.empty
  audits := []

namespace Tables

variable (tables : Tables) (runId : Nat)

def contextsOf : List ModelRunContextItem :=
  tables.contexts.rows.filter fun row => row.runId = runId

def eventsOf : List ModelRunEvent :=
  tables.events.rows.filter fun row => row.runId = runId

def toolsOf : List AgentToolCall :=
  tables.tools.rows.filter fun row => row.runId = runId

end Tables

end TamForge.Agents
