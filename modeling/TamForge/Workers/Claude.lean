import TamForge.ProofSupport.Checks
import TamForge.ProofSupport.Run

/-!
# The Claude worker

Any number of `ClaudeWorker.handle` calls share one ledger and one lease.  A
call is cut at its awaits: between two of its actions the other calls may do
anything, and a call may stop for good at any point.  Each runs
`BoundedClaudeRuntime` over a transport that may answer or fail in any way; what
a validated payload is, is left to the validator.
-/

namespace TamForge.Agents

variable {Payload : Type}

/-- What `run` can raise.  `runtimeError` is a bare `AgentRuntimeError` and
`cancelled` the caller's cancellation. -/
inductive RunError
  | timeout | turnsExceeded | quotaExhausted | authenticationFailed
  | serviceUnavailable | outputInvalid | runtimeError | cancelled

structure PreparedAgentRun where
  runKey : String
  jobType : String
  model : String
  schemaId : String
  promptVersion : String
  maxTurns : Nat

structure ValidatedAgentResult (Payload : Type) where
  runKey : String
  model : String
  schemaId : String
  payload : Payload
  turns : Nat
  repaired : Bool

structure TransportResult (Payload : Type) where
  payload : Payload
  turns : Nat

/-- How a transport call can fail: with an error that is passed on, or with any
other exception. -/
inductive TransportError
  | known (error : RunError)
  | other

def maxRepairAttempts : Nat := 1

/-- `_invoke`: nothing the transport raises is passed on as it arrived, except
the runtime's own vocabulary. -/
def invoke : Except TransportError (TransportResult Payload) →
    Except RunError (TransportResult Payload)
  | .ok result => .ok result
  | .error (.known error) => .error error
  | .error .other => .error .serviceUnavailable

/-- The loop of `_attempt`, with `left` iterations to go.  `transport n` is the
answer to the invocation number `n`. -/
def attemptFrom (validate : Payload → List String) (prepared : PreparedAgentRun)
    (transport : Nat → Except TransportError (TransportResult Payload)) :
    Nat → Nat → Except RunError (ValidatedAgentResult Payload)
  | _, 0 => .error .outputInvalid
  | attempt, left + 1 => do
      let result ← invoke (transport attempt)
      if prepared.maxTurns < result.turns then
        .error .turnsExceeded
      else if (validate result.payload).isEmpty then
        .ok {
          runKey := prepared.runKey
          model := prepared.model
          schemaId := prepared.schemaId
          payload := result.payload
          turns := result.turns
          repaired := decide (0 < attempt) }
      else
        attemptFrom validate prepared transport (attempt + 1) left

/-- `run`.  The wall-time budget can end it at any point. -/
def run (validate : Payload → List String) (prepared : PreparedAgentRun)
    (transport : Nat → Except TransportError (TransportResult Payload)) (timedOut : Bool) :
    Except RunError (ValidatedAgentResult Payload) :=
  if timedOut then
    .error .timeout
  else
    attemptFrom validate prepared transport 0 (maxRepairAttempts + 1)

section

variable {validate : Payload → List String} {prepared : PreparedAgentRun}
  {transport : Nat → Except TransportError (TransportResult Payload)}
  {result : ValidatedAgentResult Payload}

theorem attemptFrom_runKey {att left : Nat}
    (h : attemptFrom validate prepared transport att left = .ok result) :
    result.runKey = prepared.runKey := by
  induction left generalizing att with
  | zero => cases h
  | succ left ih =>
    rw [attemptFrom, ProofSupport.bind_ok_iff] at h
    obtain ⟨answer, -, h⟩ := h
    split_ifs at h
    · cases h
      rfl
    · exact ih h

/-- A validated result answers the run it was asked for. -/
theorem run_runKey {timedOut : Bool} (h : run validate prepared transport timedOut = .ok result) :
    result.runKey = prepared.runKey := by
  unfold run at h
  split_ifs at h
  exact attemptFrom_runKey h

end

end TamForge.Agents

namespace TamForge.Workers

open Agents ProofSupport

variable {Payload : Type}

def claudeJobTypes : List String :=
  ["claude.review", "claude.analyze", "claude.plan", "claude.followup"]

def maxTransientRetries : Nat := 2

inductive OutcomeKind
  | published | replayed | deferred | needsAttention

structure WorkerOutcome (Payload : Type) where
  outcome : OutcomeKind
  reason : String
  result : Option (ValidatedAgentResult Payload) := none

/-- `FAILURE_REASONS`.  The other two errors are not caught. -/
def failureReason : RunError → Option String
  | .quotaExhausted => some "quota_exhausted"
  | .authenticationFailed => some "authentication_rejected"
  | .outputInvalid => some "output_invalid"
  | .timeout => some "timeout"
  | .turnsExceeded => some "turns_exceeded"
  | .serviceUnavailable => some "service_unavailable"
  | .runtimeError => none
  | .cancelled => none

/-- How a call ends: it returns, or an error of the runtime or of the ledger
passes through it. -/
inductive Ending (Payload : Type)
  | returned (outcome : WorkerOutcome Payload)
  | raised (error : RunError)
  | ledgerFailed

/-- Where a call stands.  From `holding` to `releasing` it has the lease. -/
inductive Phase (Payload : Type)
  | ready
  | acquiring
  | holding (attempt : Nat)
  | invoked (attempt : Nat)
  | publishing (result : ValidatedAgentResult Payload)
  | releasing (ending : Ending Payload)
  | finished (ending : Ending Payload)
  | stopped

/-- One call of `handle`: its run, and the retry bound of its worker. -/
structure Handle where
  prepared : PreparedAgentRun
  maxTransientRetries : Nat := Workers.maxTransientRetries

/-- The calls together with the shared lease and ledger.  The ledger is the log
of what was published, oldest first. -/
structure Pool (Payload : Type) where
  phase : Nat → Phase Payload
  held : Option String
  ledger : List (ValidatedAgentResult Payload)

def Pool.initial : Pool Payload where
  phase := fun _ => .ready
  held := none
  ledger := []

def Pool.setPhase (s : Pool Payload) (i : Nat) (phase : Phase Payload) : Pool Payload :=
  { s with phase := fun j => if j = i then phase else s.phase j }

def published (ledger : List (ValidatedAgentResult Payload)) (runKey : String) :
    Option (ValidatedAgentResult Payload) :=
  (ledger.filter fun result => result.runKey = runKey).getLast?

/-- What `RunLedger.publish` did: stored the result, failed, or failed after
storing it. -/
inductive PublishReply
  | stored | refused | storedThenFailed

inductive Action (Payload : Type)
  | read (i : Nat)
  | acquire (i : Nat)
  | invoke (i : Nat)
  | reply (i : Nat) (transport : Nat → Except TransportError (TransportResult Payload))
      (timedOut : Bool)
  | publish (i : Nat) (reply : PublishReply)
  | release (i : Nat)
  | stop (i : Nat)

/-- The body of the loop of `_run` after the runtime answered attempt number
`attempt`. -/
def afterRun (bound attempt : Nat) :
    Except RunError (ValidatedAgentResult Payload) → Phase Payload
  | .ok result => .publishing result
  | .error .serviceUnavailable =>
    if attempt = bound then
      .releasing (.returned { outcome := .needsAttention, reason := "service_unavailable" })
    else
      .holding (attempt + 1)
  | .error error =>
    match failureReason error with
    | some reason => .releasing (.returned { outcome := .needsAttention, reason := reason })
    | none => .releasing (.raised error)

/-- `ClaudeWorker.handle` and `_run`, one action at a time.  An action that the
call cannot make now is `none`. -/
def act (validate : Payload → List String) (calls : Nat → Handle) (s : Pool Payload) :
    Action Payload → Option (Pool Payload)
  | .read i =>
    match s.phase i with
    | .ready =>
      if (calls i).prepared.jobType ∉ claudeJobTypes then
        some (s.setPhase i (.finished (.returned
          { outcome := .needsAttention, reason := "unknown_job_type" })))
      else
        match published s.ledger (calls i).prepared.runKey with
        | some already => some (s.setPhase i (.finished (.returned
            { outcome := .replayed, reason := "already_published",
              result := some already })))
        | none => some (s.setPhase i .acquiring)
    | _ => none
  | .acquire i =>
    match s.phase i with
    | .acquiring =>
      match s.held with
      | some _ => some (s.setPhase i (.finished (.returned
          { outcome := .deferred, reason := "lease_held" })))
      | none => some { s.setPhase i (.holding 0) with
          held := some (calls i).prepared.runKey }
    | _ => none
  | .invoke i =>
    match s.phase i with
    | .holding attempt => some (s.setPhase i (.invoked attempt))
    | _ => none
  | .reply i transport timedOut =>
    match s.phase i with
    | .invoked attempt => some (s.setPhase i (afterRun (calls i).maxTransientRetries attempt
        (run validate (calls i).prepared transport timedOut)))
    | _ => none
  | .publish i reply =>
    match s.phase i with
    | .publishing result =>
      let done := s.setPhase i (.releasing (.returned
        { outcome := .published, reason := "none", result := some result }))
      match reply with
      | .stored => some { done with ledger := s.ledger ++ [result] }
      | .refused => some (s.setPhase i (.releasing .ledgerFailed))
      | .storedThenFailed => some { s.setPhase i (.releasing .ledgerFailed) with
          ledger := s.ledger ++ [result] }
    | _ => none
  | .release i =>
    match s.phase i with
    | .releasing ending => some { s.setPhase i (.finished ending) with held := none }
    | _ => none
  | .stop i => some (s.setPhase i .stopped)

def PoolRun (validate : Payload → List String) (calls : Nat → Handle)
    (trace : List (Transition (Pool Payload) (Action Payload))) (s : Pool Payload) : Prop :=
  Run (fun s a t => act validate calls s a = some t) Pool.initial trace s

def actAll (validate : Payload → List String) (calls : Nat → Handle) (s : Pool Payload) :
    List (Action Payload) → List (Transition (Pool Payload) (Action Payload)) × Pool Payload
  | [] => ([], s)
  | a :: rest =>
    match act validate calls s a with
    | none => actAll validate calls s rest
    | some t =>
      let (trace, final) := actAll validate calls t rest
      (⟨s, a, t⟩ :: trace, final)

theorem run_actAll (validate : Payload → List String) (calls : Nat → Handle)
    (s : Pool Payload) (actions : List (Action Payload)) :
    Run (fun s a t => act validate calls s a = some t) s
      (actAll validate calls s actions).1 (actAll validate calls s actions).2 := by
  induction actions generalizing s with
  | nil => exact Run.refl
  | cons a rest ih =>
    rw [actAll]
    split
    · exact ih s
    · rename_i next hact
      exact (Run.single hact).append (ih next)

end TamForge.Workers
