import TamForge.Memory.Models

/-!
# What a proposal may become

The table of `memory/policy.py`.  The two regular expressions are taken as
predicates on the claim; nothing depends on which claims they match.
-/

namespace TamForge.Memory

open Models

inductive Decision
  | autoAccept | storeHypothesis | requireUserApproval | reject
deriving DecidableEq

inductive ReasonCode
  | verifiedFact | explicitPreference | agentPattern | singleEventNotATrait
  | sensitiveInference | personalInference | noProvenance | noEvidence
  | coachModeCurrentContent | transcriptInstruction | unknownAuthor
deriving DecidableEq

inductive Origin
  | system | evidence | learnerStatement | agentInference
deriving DecidableEq

inductive Author
  | role (role : Role)
  | system
  | learner
deriving DecidableEq

def Author.isRole : Author → Bool
  | role _ => true
  | system | learner => false

/-- A proposal that `__post_init__` accepted. -/
structure MemoryProposal where
  kind : MemoryKind
  claim : String
  origin : Origin
  author : Author
  modelRunId : Option Int
  evidenceKinds : List EvidenceKind
  eventCount : Nat
  sensitivity : Sensitivity
  quotedSource : Option String
  coachModeCurrentAnswer : Bool
  aboutThePerson : Bool
  claim_nonblank : isBlank claim = false
  run_named : author.isRole = true → modelRunId.isSome = true
deriving DecidableEq

/-- `timedelta(days=n)` in microseconds. -/
def days (n : Nat) : Int := (n : Int) * 86400000000

structure PolicyOutcome where
  decision : Decision
  reason : ReasonCode
  storedKind : Option MemoryKind
  retention : Option Int
  visibleTo : List Role
  requiredEvidence : Nat
deriving DecidableEq

def verifiedEvidence : EvidenceKind → Bool
  | .activity | .assessment | .report => true
  | .interview | .conversation | .userStatement => false

def minEventsForTrait : Nat := 3

def retention : MemoryKind → Option Int
  | .episodic => none
  | .semantic => some (days 180)
  | .hypothesis => some (days 30)
  | .procedural => some (days 365)

/-- `_INSTRUCTION` and `_SENSITIVE_TOPICS`. -/
structure Patterns where
  instruction : String → Bool
  sensitiveTopics : String → Bool

def allRoles : List Role := [.planner, .tutor, .coach, .reviewer, .analyst]

def learnerFacing : List Role := [.tutor, .coach, .planner]

/-- `_reject` -/
def rejected (reason : ReasonCode) : PolicyOutcome where
  decision := .reject
  reason := reason
  storedKind := none
  retention := none
  visibleTo := []
  requiredEvidence := 0

/-- A fact that is stored under the kind proposed: at once, or with the learner's
approval when it is sensitive. -/
def factOutcome (proposal : MemoryProposal) (sensitive : Bool) (reason : ReasonCode)
    (visibleTo : List Role) : PolicyOutcome :=
  if sensitive then
    ⟨.requireUserApproval, .sensitiveInference, some proposal.kind, retention proposal.kind,
      learnerFacing, 1⟩
  else
    ⟨.autoAccept, reason, some proposal.kind, retention proposal.kind, visibleTo, 1⟩

def hypothesisOutcome (decision : Decision) (reason : ReasonCode) (visibleTo : List Role) :
    PolicyOutcome :=
  ⟨decision, reason, some .hypothesis, retention .hypothesis, visibleTo, minEventsForTrait⟩

/-- `bool(proposal.quoted_source)` -/
def MemoryProposal.quotes (proposal : MemoryProposal) : Bool :=
  proposal.quotedSource.any fun source => !source.isEmpty

/-- `sensitive` -/
def MemoryProposal.isSensitive (patterns : Patterns) (proposal : MemoryProposal) : Bool :=
  proposal.sensitivity == .realInterview || patterns.sensitiveTopics proposal.claim

def unknownAuthor : Author → Bool
  | .role role => !allRoles.contains role
  | .system | .learner => false

def MemoryProposal.decide (patterns : Patterns) (proposal : MemoryProposal) : PolicyOutcome :=
  let sensitive := proposal.isSensitive patterns
  if proposal.coachModeCurrentAnswer then rejected .coachModeCurrentContent
  else if patterns.instruction proposal.claim then rejected .transcriptInstruction
  else if unknownAuthor proposal.author then rejected .unknownAuthor
  else if proposal.origin = .agentInference ∧ proposal.modelRunId = none then
    rejected .noProvenance
  else if proposal.evidenceKinds = [] then rejected .noEvidence
  else if (proposal.origin = .system ∨ proposal.origin = .evidence) ∧
      proposal.evidenceKinds.any verifiedEvidence = true then
    factOutcome proposal sensitive .verifiedFact allRoles
  else if proposal.origin = .learnerStatement ∧ proposal.quotes = true then
    factOutcome proposal sensitive .explicitPreference learnerFacing
  else if proposal.origin = .learnerStatement then rejected .noProvenance
  else if sensitive || proposal.aboutThePerson then
    hypothesisOutcome .requireUserApproval
      (if sensitive then .sensitiveInference else .personalInference) [.coach]
  else if proposal.eventCount < minEventsForTrait ∧ proposal.kind ≠ .episodic then
    hypothesisOutcome .storeHypothesis .singleEventNotATrait learnerFacing
  else hypothesisOutcome .storeHypothesis .agentPattern learnerFacing

end TamForge.Memory
