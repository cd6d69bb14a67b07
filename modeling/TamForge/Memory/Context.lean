import Mathlib.Data.List.Sort
import Mathlib.Data.Prod.Lex
import Mathlib.Data.String.Basic
import TamForge.Memory.Models

/-!
# Context packets

`memory/context.py`: which candidate sources a model run is given, in the order
of the approved hierarchy and within a token budget, and why the others were
left out.
-/

namespace TamForge.Memory

open Models

inductive Tier
  | currentAssignment | currentSubject | rubricContract | activeCorrections
  | relatedEvidence | activeCompany | verifiedRoleMemory | broaderHistory
deriving DecidableEq

def hierarchy : List Tier :=
  [.currentAssignment, .currentSubject, .rubricContract, .activeCorrections,
    .relatedEvidence, .activeCompany, .verifiedRoleMemory, .broaderHistory]

inductive ExclusionReason
  | interviewerExcluded | roleNotAllowed | sensitivityAboveCeiling | otherOwner
  | otherCompany | notCurrent | coachCurrentAnswerHidden | overBudget
deriving DecidableEq

def tiersByRole : Role → List Tier
  | .planner => hierarchy
  | .tutor => hierarchy.filter fun tier => tier != .broaderHistory
  | .coach => hierarchy
  | .reviewer => hierarchy.filter fun tier => tier != .activeCompany && tier != .broaderHistory
  | .analyst => hierarchy
  | .interviewer => []

def maxActiveCorrections : Nat := 2

def charsPerToken : Nat := 4

structure ContextSource where
  sourceId : String
  tier : Tier
  ownerId : Int
  text : String
  sensitivity : Sensitivity
  companyId : Option Int
  revisionId : Option Int
  isCurrentAnswer : Bool
deriving DecidableEq

def ContextSource.tokens (source : ContextSource) : Nat :=
  max 1 (source.text.length / charsPerToken)

structure ContextRequest where
  ownerId : Int
  role : Role
  ceiling : Sensitivity
  time : Instant
  tokenBudget : Nat
  companyId : Option Int
  owner_pos : 0 < ownerId
  budget_pos : 0 < tokenBudget

structure Included where
  sourceId : String
  tier : Tier
  position : Nat
  tokens : Nat
  revisionId : Option Int
deriving DecidableEq

structure Excluded where
  sourceId : String
  tier : Tier
  reason : ExclusionReason
deriving DecidableEq

structure ContextPacket where
  ownerId : Int
  role : Role
  ceiling : Sensitivity
  tokenBudget : Nat
  tokensUsed : Nat
  included : List Included
  excluded : List Excluded

def exclusion (source : ContextSource) (request : ContextRequest)
    (currentRevisions : List Int) : Option ExclusionReason :=
  if request.role = .interviewer then some .interviewerExcluded
  else if source.tier ∉ tiersByRole request.role then some .roleNotAllowed
  else if source.ownerId ≠ request.ownerId then some .otherOwner
  else if request.ceiling.rank < source.sensitivity.rank then some .sensitivityAboveCeiling
  else if source.companyId.isSome ∧ request.companyId.isSome ∧
      source.companyId ≠ request.companyId then some .otherCompany
  else if source.revisionId.any (fun revision => !currentRevisions.contains revision) then
    some .notCurrent
  else if request.role = .coach ∧ source.isCurrentAnswer = true then
    some .coachCurrentAnswerHidden
  else none

def hierarchyKey (source : ContextSource) : Nat ×ₗ String :=
  toLex (hierarchy.idxOf source.tier, source.sourceId)

/-- The variables of the loop over the survivors. -/
structure Trimming where
  correctionsTaken : Nat
  included : List Included
  excluded : List Excluded
  used : Nat

def Trimming.leaveOut (state : Trimming) (source : ContextSource) : Trimming :=
  { state with excluded := state.excluded ++ [⟨source.sourceId, source.tier, .overBudget⟩] }

def Trimming.take (budget : Nat) (state : Trimming) (source : ContextSource) : Trimming :=
  if budget < state.used + source.tokens then state.leaveOut source
  else { state with
    used := state.used + source.tokens,
    included := state.included ++
      [⟨source.sourceId, source.tier, state.included.length, source.tokens, source.revisionId⟩] }

/-- One turn of the loop: a correction counts as taken before the budget is
looked at. -/
def Trimming.decide (budget : Nat) (state : Trimming) (source : ContextSource) : Trimming :=
  if source.tier = .activeCorrections then
    if maxActiveCorrections ≤ state.correctionsTaken then state.leaveOut source
    else { state with correctionsTaken := state.correctionsTaken + 1 }.take budget source
  else state.take budget source

def currentRevisions (request : ContextRequest) (ledger : MemoryLedger) : List Int :=
  (ledger.visible request.role request.time request.ceiling none).map fun revision =>
    revision.revisionId

def survivors (sources : List ContextSource) (request : ContextRequest)
    (ledger : MemoryLedger) : List ContextSource :=
  (sources.filter fun source =>
    exclusion source request (currentRevisions request ledger) = none).insertionSort
      fun source other => hierarchyKey source ≤ hierarchyKey other

def ruledOut (sources : List ContextSource) (request : ContextRequest)
    (ledger : MemoryLedger) : List Excluded :=
  sources.filterMap fun source =>
    (exclusion source request (currentRevisions request ledger)).map fun reason =>
      ⟨source.sourceId, source.tier, reason⟩

def buildContext (sources : List ContextSource) (request : ContextRequest)
    (ledger : MemoryLedger) : ContextPacket :=
  let final := (survivors sources request ledger).foldl (Trimming.decide request.tokenBudget)
    { correctionsTaken := 0, included := [], excluded := ruledOut sources request ledger,
      used := 0 }
  { ownerId := request.ownerId, role := request.role, ceiling := request.ceiling,
    tokenBudget := request.tokenBudget, tokensUsed := final.used,
    included := final.included, excluded := final.excluded }

def ContextPacket.sourcesSeen (packet : ContextPacket) : Nat :=
  packet.included.length + packet.excluded.length

end TamForge.Memory
