import Mathlib.Data.List.Dedup
import TamForge.Agents.Contracts

/-!
# The tool registry

`ToolAudit` of `agents/contracts.py` and the call of a registered tool
(`agents/tools/registry.py`).  Schemas and handlers are the tool's own.
-/

namespace TamForge.Agents.Tools

open Models ProofSupport

inductive AgentRole where
  | planner | tutor | coach | reviewer | analyst | interviewer
deriving DecidableEq

inductive ToolPhase where
  | request | succeeded | failed | cancelled
deriving DecidableEq

structure ToolAudit where
  callKey : Key
  phase : ToolPhase
  toolName : Key
  toolVersion : Key
  schemaHash : Hash
  elapsedMs : Nat
  contextOrdinals : List Int := []
  errorCategory : Option Failure := none

def ToolAudit.valid (audit : ToolAudit) : Bool :=
  safeKey audit.callKey && safeKey audit.toolName && safeKey audit.toolVersion &&
    isHash audit.schemaHash && isCount audit.elapsedMs &&
    audit.contextOrdinals.all (fun ordinal => decide (0 ≤ ordinal ∧ ordinal ≤ 63)) &&
    decide (audit.contextOrdinals.length ≤ 64) && decide audit.contextOrdinals.Nodup &&
    decide ((audit.phase = .failed ∨ audit.phase = .cancelled) ↔ audit.errorCategory ≠ none)

inductive ToolErrorKind where
  | other | notFound | notAuthorized | inputInvalid | contextForbidden | failed

structure ToolError where
  kind : ToolErrorKind
  message : String

/-- `_category` -/
def category (refusal : ToolError) : Failure :=
  match refusal.kind with
  | .inputInvalid => .invalidInput
  | .notAuthorized | .contextForbidden => .permissionRequired
  | .other | .notFound | .failed => .processingFailure

/-- What the registry reads of the validated arguments. -/
structure Payload where
  limit : Option Int := none
  contextOrdinals : List Int := []

structure ToolContext where
  allowedContextOrdinals : List Int
  allowed_within : ∀ ordinal ∈ allowedContextOrdinals, 0 ≤ ordinal ∧ ordinal ≤ 63

/-- How the handler ends: the text of an exception of its own, `CancelledError` apart. -/
inductive HandlerEnd (β : Type) where
  | returned (value : β)
  | refused (error : ToolError)
  | raised (text : String)
  | cancelled

structure ToolSpec (α β : Type) where
  name : String
  version : String
  roles : List AgentRole
  modelValidate : α → Option Payload
  handler : Payload → ToolContext → HandlerEnd β
  schemaHash : Hash
  roles_nonempty : roles ≠ []
  hash_valid : isHash schemaHash = true

structure ToolRegistry (α β : Type) where
  specs : List (ToolSpec α β)
  names_nodup : (specs.map ToolSpec.name).Nodup

/-- `uuid4().hex`, and the milliseconds up to the first and the last record of the call. -/
structure CallStart where
  callKey : Key
  requestMs : Nat
  endMs : Nat
  key_valid : safeKey callKey = true

inductive CallEvent where
  | recorded (audit : ToolAudit)
  | handled (payload : Payload)

/-- What the caller gets: `invalid` is the validation error of an audit. -/
inductive Outcome (β : Type) where
  | returned (value : β)
  | raised (error : ToolError)
  | invalid
  | cancelled

def maxItemLimit : Int := 200

variable {α β : Type}

/-- `_prepare` -/
def prepare (spec : ToolSpec α β) (role : AgentRole) (arguments : α) (context : ToolContext) :
    Except ToolError Payload :=
  if role ∉ spec.roles then .error ⟨.notAuthorized, "this role may not use this tool"⟩
  else
    match spec.modelValidate arguments with
    | none => .error ⟨.inputInvalid, "arguments did not satisfy the tool schema"⟩
    | some payload => do
      raiseFirst [
        (payload.limit.any (maxItemLimit < ·),
          ⟨.inputInvalid, "requested more items than any tool may return"⟩),
        (!payload.contextOrdinals.all (· ∈ context.allowedContextOrdinals),
          ⟨.contextForbidden, "the call asked for context this run was not granted"⟩)]
      return payload

/-- `_record`, with a sink that accepts every record. -/
def record (spec : ToolSpec α β) (callKey : Key) (phase : ToolPhase) (elapsedMs : Nat)
    (ordinals : List Int) (errorCategory : Option Failure) : Option ToolAudit :=
  let audit : ToolAudit := {
    callKey, phase, elapsedMs, errorCategory
    toolName := spec.name
    toolVersion := spec.version
    schemaHash := spec.schemaHash
    contextOrdinals := ordinals }
  if audit.valid then some audit else none

def recorded (events : List CallEvent) (audit : Option ToolAudit) (outcome : Outcome β) :
    List CallEvent × Outcome β :=
  match audit with
  | none => (events, .invalid)
  | some audit => (events ++ [.recorded audit], outcome)

/-- `call` behind the record of the request. -/
def callBody (spec : ToolSpec α β) (start : CallStart) (role : AgentRole) (arguments : α)
    (context : ToolContext) (events : List CallEvent) : List CallEvent × Outcome β :=
  match prepare spec role arguments context with
  | .error refusal => recorded events
      (record spec start.callKey .failed start.endMs [] (some (category refusal)))
      (.raised refusal)
  | .ok payload =>
    let events := events ++ [.handled payload]
    match spec.handler payload context with
    | .refused refusal => recorded events
        (record spec start.callKey .failed start.endMs [] (some (category refusal)))
        (.raised refusal)
    | .raised _ => recorded events
        (record spec start.callKey .failed start.endMs [] (some .processingFailure))
        (.raised ⟨.failed, "the tool handler failed"⟩)
    | .cancelled => (events, .cancelled)
    | .returned value => recorded events
        (record spec start.callKey .succeeded start.endMs payload.contextOrdinals.dedup none)
        (.returned value)

def call (registry : ToolRegistry α β) (start : CallStart) (role : AgentRole) (name : String)
    (arguments : α) (context : ToolContext) : List CallEvent × Outcome β :=
  match registry.specs.find? (·.name = name) with
  | none => ([], .raised ⟨.notFound, "no tool is registered under that name"⟩)
  | some spec =>
    match record spec start.callKey .request start.requestMs [] none with
    | none => ([], .invalid)
    | some request => callBody spec start role arguments context [.recorded request]

end TamForge.Agents.Tools
