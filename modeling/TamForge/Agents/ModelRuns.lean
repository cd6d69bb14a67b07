import TamForge.Agents.Models
import TamForge.ProofSupport.Run

/-!
# The model-run ledger

`ModelRunRepository.register`, `append_event` and `append_tool`, with what the
insert triggers of the provenance tables add to them.  `register` holds the
owner row and the other two the run row until they commit, so each is one
function of the rows it finds; a call that raises leaves them as they were.
The audit row of a refusal is written afterwards, in a transaction of its own.
-/

namespace TamForge.Agents

open Models ProofSupport
open Recordings (hexdigest canonicalJsonBytes)

/-! ## The text that a reference selects -/

def learnerFields : String → List String
  | "reading" =>
    ["key_ideas", "boundary_or_failure", "tam_customer_example", "unresolved_question"]
  | "sql" => ["query", "result", "validation", "explanation", "business_meaning"]
  | "case" =>
    ["discovery_questions", "assumptions", "working_notes", "final_artifact", "decisions",
      "risks", "unresolved_questions"]
  | "writing" => ["draft_markdown", "self_edit_notes"]
  | "pipeline" => ["completed_action", "artifact_summary", "next_action"]
  | _ => []

/-- `0|[1-9][0-9]*` -/
def isIndex : List Char → Bool
  | ['0'] => true
  | first :: rest => first.isDigit && first != '0' && rest.all Char.isDigit
  | [] => false

/-- `int(part)` of decimal digits. -/
def indexValue (part : List Char) : Nat :=
  part.foldl (fun value c => 10 * value + (c.toNat - 48)) 0

def selectText (output : List (String × Json)) (field : String) (index : Option (List Char)) :
    Option String :=
  match Json.item? output field, index with
  | some (.string text), none => some text
  | some (.array items), some part =>
    if isIndex part then
      match items[indexValue part]? with
      | some (.string text) => some text
      | _ => none
    else none
  | _, _ => none

/-- Field and index of a pointer below `output`. -/
def pointerParts (pointer : String) : Option (String × Option (List Char)) :=
  match pointer.toList.splitOn '/' with
  | [_, root, field] => if root = "output".toList then some (String.ofList field, none) else none
  | [_, root, field, index] =>
    if root = "output".toList then some (String.ofList field, some index) else none
  | _ => none

def selected (original : OriginalText) (pointer : String) : Option String :=
  match original.document, pointerParts pointer with
  | some (.object fields), some (field, index) =>
    match Json.item? fields "output" with
    | some (.object output) =>
      match Json.item? output "kind" with
      | some (.string kind) =>
        if field ∈ learnerFields kind then selectText output field index else none
      | _ => none
    | _ => none
  | _, _ => none

def textHash (text : String) : Hash :=
  hexdigest (sha256 text.toUTF8.toList)

def resolveAttemptText (original : OriginalText) (reference : AttemptTextReference) :
    Except ProvenanceError Hash :=
  match selected original reference.jsonPointer with
  | none => .error .invalidProvenance
  | some text =>
    if text.toList.length < reference.endCodepoint then .error .invalidProvenance
    else .ok (textHash (String.ofList
      ((text.toList.take reference.endCodepoint).drop reference.startCodepoint)))

/-! ## `register` -/

structure Refusal where
  error : ProvenanceError
  audit : Option AuditReasonCode
deriving DecidableEq

def silent {α : Type} (result : Except ProvenanceError α) : Except Refusal α :=
  result.mapError fun error => ⟨error, none⟩

def lockOwner (world : Surroundings) (ownerId : Nat) : Except ProvenanceError Unit :=
  if ownerId = 0 then .error .invalidProvenance
  else if ownerId ∈ world.owners then .ok ()
  else .error .provenanceNotFound

def committedAttempt (world : Surroundings) (request : RunRequest) :
    Except ProvenanceError (Attempt × OriginalText) :=
  if (request.ownerId, request.activityId) ∉ world.activities then .error .invalidProvenance
  else
    match world.attempts.find? fun attempt =>
      attempt.ownerId = request.ownerId && attempt.id = request.attempt.id &&
        attempt.activityInstanceId = request.activityId with
    | none => .error .invalidProvenance
    | some attempt =>
      match attempt.originalText with
      | none => .error .invalidProvenance
      | some original =>
        if hexdigest attempt.commitmentHash ≠ request.attempt.contentHash then
          .error .invalidProvenance
        else .ok (attempt, original)

def contextPayload (request : RunRequest) (original : OriginalText) (item : ContextInput) :
    ContextPayload where
  ownerId := request.ownerId
  activityId := request.activityId
  sourceHash := textHash original.text
  item := item

def resolveContext (request : RunRequest) (original : OriginalText) (item : ContextInput) :
    Except ProvenanceError ContextPayload := do
  let resolved ← resolveAttemptText original item.reference
  if resolved ≠ item.preparedInputHash then .error .invalidProvenance
  else .ok (contextPayload request original item)

def runHeader (request : RunRequest) (original : OriginalText) : RunPayload :=
  let manifest := request.context.map fun item => digest (contextPayload request original item).dump
  { ownerId := request.ownerId
    invocationKey := request.invocationKey
    activityId := request.activityId
    attempt := request.attempt
    prompt := request.prompt
    schemaVersion := request.schemaVersion
    rubricBinding := request.rubricBinding
    requestedModel := request.requestedModel
    sdkVersion := request.sdkVersion
    cliVersion := request.cliVersion
    jobId := request.jobId
    predecessor := request.predecessor
    manifest := manifest
    manifestHash := digest (.array (manifest.map .string)) }

/-- The gates of `register` up to the lookup of the key: the committed text, and
the context rows over it. -/
def prepare (world : Surroundings) (request : RunRequest) :
    Except Refusal (OriginalText × List ContextPayload) :=
  if request.valid then do
    silent (lockOwner world request.ownerId)
    let (attempt, original) ← silent (committedAttempt world request)
    if understates request.classification (deriveSubmissionScope attempt.attemptKind) then
      .error ⟨.invalidProvenance, some .unauthorized⟩
    else do
      let items ← silent (request.context.mapM (resolveContext request original))
      .ok (original, items)
  else .error ⟨.invalidProvenance, none⟩

def ModelRun.verified (run : ModelRun) : Except ProvenanceError ModelRun :=
  if recordHash run.payload.dump = run.contentHash then .ok run else .error .invalidProvenance

def existingRun (tables : Tables) (request : RunRequest) : Option ModelRun :=
  tables.runs.rows.find? fun run => run.key = (request.ownerId, request.invocationKey)

/-- `_audit` -/
def auditRow (request : RunRequest) (reason : AuditReasonCode) (replayed : Bool) : AuditEvent :=
  let accepted := decide (reason = .none)
  { ownerId := request.ownerId
    action := if accepted then .submitted else .refused
    activityId := request.activityId
    idempotencyCorrelationHash := sha256 request.invocationKey.toUTF8.toList
    outcome := if accepted then (if replayed then .noop else .succeeded) else .denied
    reasonCode := reason
    authorized := accepted
    replayed := replayed }

def pinned (rows : List PublishedVersion) (ownerId : Nat) (pin : PinnedVersion) : Bool :=
  match rows.find? fun row => row.ownerId = ownerId && row.id = pin.id with
  | some row => decide (hexdigest row.contentHash = pin.contentHash)
  | none => false

/-- What the insert trigger and the foreign keys of `model_runs` ask of a header,
beyond what the request was checked for. -/
def runAccepted (world : Surroundings) (tables : Tables) (header : RunPayload) : Bool :=
  pinned world.promptVersions header.ownerId header.prompt &&
    pinned world.outputSchemaVersions header.ownerId header.schemaVersion &&
    pinned world.rubricVersionHashes header.ownerId header.rubricBinding &&
    (header.jobId.all fun id => decide ((header.ownerId, id) ∈ world.backgroundJobs)) &&
    header.predecessor.all fun pin =>
      match tables.runs.rows.find? fun run =>
        run.ownerId = header.ownerId && run.payload.activityId = header.activityId &&
          run.id = pin.id with
      | some run => decide (hexdigest run.contentHash = pin.contentHash)
      | none => false

/-- What `tamforge_provenance_context` asks beyond `resolve_attempt_text`. -/
def contextAccepted (original : OriginalText) (payload : ContextPayload) : Bool :=
  (match original.document with
    | some (.object fields) =>
      match Json.item? fields "contract_version" with
      | some (.number text) => text == "1" || text == "1.0"
      | _ => false
    | _ => false) &&
    match pointerParts payload.item.reference.jsonPointer with
    | some (_, some index) => decide (index.length ≤ 9)
    | _ => true

def newRun (request : RunRequest) (original : OriginalText) (id : Nat) : ModelRun where
  id := id
  ownerId := request.ownerId
  payload := runHeader request original
  contentHash := recordHash (runHeader request original).dump

def newContext (request : RunRequest) (runId : Nat) (payload : ContextPayload) (id : Nat) :
    ModelRunContextItem where
  id := id
  ownerId := request.ownerId
  runId := runId
  payload := payload
  contentHash := recordHash payload.dump

/-- The rows of a new run.  The deferred check of the manifest compares the
context rows with the header they were built with, so it has nothing to refuse. -/
def insertRun (tables : Tables) (request : RunRequest) (original : OriginalText)
    (items : List ContextPayload) : ModelRun × Tables :=
  let (run, runs) := tables.runs.insert (newRun request original)
  (run,
    { tables with
      runs := runs
      contexts := (tables.contexts.insertAll (items.map (newContext request run.id))).2
      audits := tables.audits ++ [auditRow request .none false] })

/-- The two headers have the same `canonical_json`. -/
@[irreducible] def RunPayload.sameContent (left right : RunPayload) : Bool :=
  canonicalJsonBytes left.dump == canonicalJsonBytes right.dump

def replayRun (tables : Tables) (request : RunRequest) (header : RunPayload)
    (existing : ModelRun) : Except Refusal (ModelRun × Tables) := do
  let existing ← silent existing.verified
  if existing.payload.sameContent header then
    .ok (existing, { tables with audits := tables.audits ++ [auditRow request .none true] })
  else .error ⟨.immutableVersionConflict, some .conflict⟩

def register (world : Surroundings) (tables : Tables) (request : RunRequest) :
    Except Refusal (ModelRun × Tables) := do
  let (original, items) ← prepare world request
  let header := runHeader request original
  match existingRun tables request with
  | some existing => replayRun tables request header existing
  | none =>
    if runAccepted world tables header && items.all (contextAccepted original) then
      .ok (insertRun tables request original items)
    else .error ⟨.invalidProvenance, none⟩

/-! ## `append_event` -/

def lockedRun (tables : Tables) (ownerId : Nat) (runHash : Digest) :
    Except ProvenanceError ModelRun :=
  if ownerId = 0 then .error .invalidProvenance
  else
    match tables.runs.rows.find? fun run => run.ownerId = ownerId && run.contentHash = runHash with
    | none => .error .provenanceNotFound
    | some run => run.verified

structure EventCall where
  ownerId : Nat
  runHash : Digest
  expectedSequence : Nat
  expectedState : RunState
  event : Lifecycle

def latestEvent (tables : Tables) (runId : Nat) : Option ModelRunEvent :=
  Table.latest ModelRunEvent.sequence (tables.eventsOf runId)

def sequenceOf : Option ModelRunEvent → Nat
  | some row => row.sequence
  | none => 0

def stateOf : Option ModelRunEvent → RunState
  | some row => row.payload.event.state
  | none => .registered

def answered (calls : List AgentToolCall) : Bool :=
  calls.all fun request =>
    request.phaseSlot == 1 ||
      calls.any fun reply =>
        decide (reply.payload.audit.callKey = request.payload.audit.callKey) &&
          reply.phaseSlot == 1

/-- What the insert trigger of `model_run_events` asks beyond the contract and
the expected sequence and state. -/
def eventAccepted (tables : Tables) (run : ModelRun) (latest : Option ModelRunEvent)
    (payload : EventPayload) : Bool :=
  isCount payload.sequence &&
    (latest.all fun row => decide (row.payload.event.elapsedMs ≤ payload.event.elapsedMs)) &&
    (decide (payload.event.state ≠ .succeeded) || answered (tables.toolsOf run.id))

def EventCall.payload (call : EventCall) (sequence : Nat) : EventPayload where
  ownerId := call.ownerId
  runHash := call.runHash
  sequence := sequence + 1
  expectedState := call.expectedState
  event := call.event

def newEvent (call : EventCall) (runId sequence id : Nat) : ModelRunEvent where
  id := id
  ownerId := call.ownerId
  runId := runId
  payload := call.payload sequence
  contentHash := recordHash (call.payload sequence).dump

def appendEvent (tables : Tables) (call : EventCall) :
    Except ProvenanceError (ModelRunEvent × Tables) :=
  if call.event.valid then do
    let run ← lockedRun tables call.ownerId call.runHash
    let latest := latestEvent tables run.id
    let sequence := sequenceOf latest
    let state := stateOf latest
    if (sequence, state) ≠ (call.expectedSequence, call.expectedState) then .error .stateConflict
    else do
      validateTransition state call.event
      if eventAccepted tables run latest (call.payload sequence) then
        let (row, events) := tables.events.insert (newEvent call run.id sequence)
        .ok (row, { tables with events := events })
      else .error .invalidProvenance
  else .error .invalidProvenance

/-! ## `append_tool` -/

structure ToolCall where
  ownerId : Nat
  runHash : Digest
  expectedSequence : Nat
  audit : ToolAudit

def latestTool (tables : Tables) (runId : Nat) : Option AgentToolCall :=
  Table.latest AgentToolCall.sequence (tables.toolsOf runId)

def toolSequenceOf : Option AgentToolCall → Nat
  | some row => row.sequence
  | none => 0

/-- A reply answers one request, once, with the request's own particulars. -/
def paired (calls : List AgentToolCall) (audit : ToolAudit) : Bool :=
  let ofKey := calls.filter fun row => row.payload.audit.callKey = audit.callKey
  let request := ofKey.find? fun row => row.phaseSlot == 0
  if audit.phase = .request then request.isNone
  else
    (match request with
      | none => false
      | some row =>
        decide (row.payload.audit.elapsedMs ≤ audit.elapsedMs) &&
          decide (row.payload.audit.toolName = audit.toolName) &&
          decide (row.payload.audit.toolVersion = audit.toolVersion) &&
          decide (row.payload.audit.schemaHash = audit.schemaHash) &&
          decide (row.payload.audit.contextOrdinals = audit.contextOrdinals)) &&
      ofKey.all fun row => row.phaseSlot == 0

/-- What the insert trigger of `agent_tool_calls` asks beyond the contract and
the expected sequence. -/
def toolAccepted (world : Surroundings) (tables : Tables) (run : ModelRun)
    (payload : ToolPayload) : Bool :=
  isCount payload.sequence && decide (stateOf (latestEvent tables run.id) = .running) &&
    (world.outputSchemaVersions.any fun row =>
      decide (row.ownerId = payload.ownerId) &&
        decide (hexdigest row.contentHash = payload.audit.schemaHash)) &&
    (payload.audit.contextOrdinals.all fun ordinal =>
      (tables.contextsOf run.id).any fun row => decide (row.ordinal = ordinal)) &&
    paired (tables.toolsOf run.id) payload.audit

def ToolCall.payload (call : ToolCall) (sequence : Nat) : ToolPayload where
  ownerId := call.ownerId
  runHash := call.runHash
  sequence := sequence + 1
  audit := call.audit

def newTool (call : ToolCall) (runId sequence id : Nat) : AgentToolCall where
  id := id
  ownerId := call.ownerId
  runId := runId
  payload := call.payload sequence
  contentHash := recordHash (call.payload sequence).dump

def appendTool (world : Surroundings) (tables : Tables) (call : ToolCall) :
    Except ProvenanceError (AgentToolCall × Tables) :=
  if call.audit.valid then do
    let run ← lockedRun tables call.ownerId call.runHash
    let sequence := toolSequenceOf (latestTool tables run.id)
    if sequence ≠ call.expectedSequence then .error .stateConflict
    else if toolAccepted world tables run (call.payload sequence) then
      let (row, tools) := tables.tools.insert (newTool call run.id sequence)
      .ok (row, { tables with tools := tools })
    else .error .invalidProvenance
  else .error .invalidProvenance

/-! ## Sessions -/

structure LedgerState where
  world : Surroundings
  tables : Tables
  /-- Refused submissions whose audit row is not written yet. -/
  refused : List (RunRequest × AuditReasonCode)

/-- A call with what it returned, or the second transaction of a refused one. -/
inductive LedgerStep
  | register (request : RunRequest) (result : Except ProvenanceError ModelRun)
  | auditRefusal (request : RunRequest) (reason : AuditReasonCode)
  | appendEvent (call : EventCall) (result : Except ProvenanceError ModelRunEvent)
  | appendTool (call : ToolCall) (result : Except ProvenanceError AgentToolCall)
  | elsewhere

/-- One transaction of some session, or a change of rows that the ledger only
reads. -/
inductive LedgerState.Step : LedgerState → LedgerStep → LedgerState → Prop
  | registered {s : LedgerState} {request : RunRequest} {run : ModelRun} {tables : Tables} :
      Agents.register s.world s.tables request = .ok (run, tables) →
      Step s (.register request (.ok run)) { s with tables := tables }
  | registerRefused {s : LedgerState} {request : RunRequest} {refusal : Refusal} :
      Agents.register s.world s.tables request = .error refusal →
      Step s (.register request (.error refusal.error))
        { s with refused := s.refused ++ refusal.audit.toList.map fun reason => (request, reason) }
  | refusalAudited {s : LedgerState} {before after : List (RunRequest × AuditReasonCode)}
      {request : RunRequest} {reason : AuditReasonCode} :
      s.refused = before ++ (request, reason) :: after →
      Step s (.auditRefusal request reason)
        { s with
          tables :=
            { s.tables with audits := s.tables.audits ++ [auditRow request reason false] }
          refused := before ++ after }
  | eventAppended {s : LedgerState} {call : EventCall} {row : ModelRunEvent} {tables : Tables} :
      Agents.appendEvent s.tables call = .ok (row, tables) →
      Step s (.appendEvent call (.ok row)) { s with tables := tables }
  | eventRefused {s : LedgerState} {call : EventCall} {error : ProvenanceError} :
      Agents.appendEvent s.tables call = .error error →
      Step s (.appendEvent call (.error error)) s
  | toolAppended {s : LedgerState} {call : ToolCall} {row : AgentToolCall} {tables : Tables} :
      Agents.appendTool s.world s.tables call = .ok (row, tables) →
      Step s (.appendTool call (.ok row)) { s with tables := tables }
  | toolRefused {s : LedgerState} {call : ToolCall} {error : ProvenanceError} :
      Agents.appendTool s.world s.tables call = .error error →
      Step s (.appendTool call (.error error)) s
  | elsewhere {s : LedgerState} {world : Surroundings} :
      Step s .elsewhere { s with world := world }

/-- Before any submission. -/
def LedgerState.initial (world : Surroundings) : LedgerState where
  world := world
  tables := Tables.empty
  refused := []

end TamForge.Agents
