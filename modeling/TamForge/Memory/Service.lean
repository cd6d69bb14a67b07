import TamForge.Memory.Policy
import TamForge.ProofSupport.Run

/-!
# Reviewing proposals

`MemoryReview` of `memory/service.py`.  Every operation returns what it returned
or raised together with the review it leaves behind, since a call can raise after
it has changed a counter.
-/

namespace TamForge.Memory

open Models ProofSupport

inductive ProposalStatus
  | written | pendingApproval | rejected | approved | promoted
deriving DecidableEq

structure ProposalRecord where
  proposalId : Nat
  proposal : MemoryProposal
  outcome : PolicyOutcome
  status : ProposalStatus
  revisionId : Option Nat
  decidedAt : Instant
  reviewedBy : Option String
  promotedToRevisionId : Option Nat
deriving DecidableEq

structure MemoryReview where
  ledger : MemoryLedger
  records : List ProposalRecord
  nextProposal : Nat
  nextMemory : Nat
  nextRevision : Nat

def emptyReview : MemoryReview where
  ledger := []
  records := []
  nextProposal := 1
  nextMemory := 1
  nextRevision := 1

def provenance (proposal : MemoryProposal) : Provenance :=
  match proposal.author with
  | .learner | .system => ⟨.learner, none⟩
  | .role role => ⟨.role role, proposal.modelRunId⟩

/-- `now + delta`, which cannot pass the last representable moment. -/
def addTime (now : Instant) (delta : Int) : Except MemoryFailure Instant :=
  if datetimeMax < now + delta then .error .overflow else .ok (now + delta)

namespace MemoryReview

variable (review : MemoryReview)

/-- `self.records.get(proposal_id)` -/
def record? (proposalId : Nat) : Option ProposalRecord :=
  review.records.find? fun record => record.proposalId == proposalId

/-- `self.records[record.proposal_id] = record` -/
def setRecord (record : ProposalRecord) : MemoryReview :=
  { review with
    records :=
      if review.records.any fun other => other.proposalId == record.proposalId then
        review.records.map fun other =>
          if other.proposalId = record.proposalId then record else other
      else review.records ++ [record] }

/-- The revision that `_write` constructs. -/
def revisionOf (proposal : MemoryProposal) (outcome : PolicyOutcome) (kind : MemoryKind)
    (now : Instant) (approval : Approval) (evidence : List EvidenceLink)
    (expiresAt : Option Instant) : MemoryRevision where
  memoryId := review.nextMemory
  revisionId := review.nextRevision
  revisionNumber := 1
  kind := kind
  scope := .global
  scopeReferenceId := none
  claim := proposal.claim
  confidence := if kind = .hypothesis then 5 else 8
  sensitivity := proposal.sensitivity
  visibleTo := outcome.visibleTo
  evidence := evidence
  provenance := provenance proposal
  validFrom := now
  validTo := none
  expiresAt := expiresAt
  supersedesRevisionId := none
  contradictsRevisionIds := []
  approval := approval
  recordedAt := now

/-- `_write`; it changes the review only when it returns. -/
def write (proposal : MemoryProposal) (outcome : PolicyOutcome) (now : Instant)
    (approval : Approval) (evidence : List EvidenceLink) :
    Except MemoryFailure (MemoryRevision × MemoryReview) := do
  let some kind := outcome.storedKind | throw .assertion
  (provenance proposal).validate
  let expiresAt ← outcome.retention.mapM (addTime now)
  let revision := review.revisionOf proposal outcome kind now approval evidence expiresAt
  revision.validate
  let ledger ← MemoryLedger.append review.ledger revision
  pure (revision, { review with
    ledger := ledger
    nextMemory := review.nextMemory + 1
    nextRevision := review.nextRevision + 1 })

def writtenApproval : Decision → Option Approval
  | .autoAccept => some .approved
  | .storeHypothesis => some .proposed
  | .requireUserApproval | .reject => none

def propose (patterns : Patterns) (proposal : MemoryProposal) (evidence : List EvidenceLink)
    (now : Instant) : Except MemoryFailure ProposalRecord × MemoryReview :=
  let outcome := proposal.decide patterns
  if evidence.length < outcome.requiredEvidence ∧ outcome.decision = .autoAccept then
    (.error (.review "an accepted fact must cite the evidence it rests on"), review)
  else
    let proposalId := review.nextProposal
    let counted := { review with nextProposal := review.nextProposal + 1 }
    match writtenApproval outcome.decision with
    | some approval =>
      match counted.write proposal outcome now approval evidence with
      | .error failure => (.error failure, counted)
      | .ok (revision, next) =>
        let record := ⟨proposalId, proposal, outcome, .written, some revision.revisionId, now,
          none, none⟩
        (.ok record, next.setRecord record)
    | none =>
      let status : ProposalStatus :=
        if outcome.decision = .requireUserApproval then .pendingApproval else .rejected
      let record := ⟨proposalId, proposal, outcome, status, none, now, none, none⟩
      (.ok record, counted.setRecord record)

def confirmed (record : ProposalRecord) : PolicyOutcome :=
  { record.outcome with
    storedKind :=
      if record.proposal.kind = .hypothesis then some .semantic else some record.proposal.kind }

def atomically {α : Type} (call : Except MemoryFailure (α × MemoryReview)) :
    Except MemoryFailure α × MemoryReview :=
  match call with
  | .error failure => (.error failure, review)
  | .ok (result, next) => (.ok result, next)

def approveCall (proposalId : Nat) (reviewer : String) (evidence : List EvidenceLink)
    (now : Instant) : Except MemoryFailure (ProposalRecord × MemoryReview) := do
  let some record := (review.record? proposalId).filter (·.status == .pendingApproval)
    | throw (.review "only a pending proposal can be approved")
  raiseFirst [(decide (evidence.length < record.outcome.requiredEvidence),
    .review ("approval needs " ++ toString record.outcome.requiredEvidence ++
      " pieces of evidence, got " ++ toString evidence.length))]
  let (revision, next) ←
    review.write record.proposal (confirmed record) now .approved evidence
  let updated := { record with
    status := .approved
    revisionId := some revision.revisionId
    decidedAt := now
    reviewedBy := some reviewer
    promotedToRevisionId := none }
  pure (updated, next.setRecord updated)

def approve (proposalId : Nat) (reviewer : String) (evidence : List EvidenceLink)
    (now : Instant) : Except MemoryFailure ProposalRecord × MemoryReview :=
  review.atomically (review.approveCall proposalId reviewer evidence now)

def rejectCall (proposalId : Nat) (reviewer : String) (now : Instant) :
    Except MemoryFailure (ProposalRecord × MemoryReview) := do
  let some record := (review.record? proposalId).filter (·.status == .pendingApproval)
    | throw (.review "only a pending proposal can be rejected")
  let updated := { record with
    status := .rejected
    revisionId := none
    decidedAt := now
    reviewedBy := some reviewer
    promotedToRevisionId := none }
  pure (updated, review.setRecord updated)

def reject (proposalId : Nat) (reviewer : String) (now : Instant) :
    Except MemoryFailure ProposalRecord × MemoryReview :=
  review.atomically (review.rejectCall proposalId reviewer now)

def memoryOf (revisionId : Nat) : Except MemoryFailure Nat :=
  match review.ledger.find? fun revision => revision.revisionId == revisionId with
  | some revision => .ok revision.memoryId
  | none => .error (.review ("revision " ++ toString revisionId ++ " is not in the ledger"))

def semantic (outcome : PolicyOutcome) : PolicyOutcome :=
  { outcome with
    decision := .autoAccept
    reason := .verifiedFact
    storedKind := some .semantic }

def promoteCall (proposalId : Nat) (evidence : List EvidenceLink) (now : Instant) :
    Except MemoryFailure (ProposalRecord × MemoryReview) := do
  let some record := (review.record? proposalId).filter
      (fun record => record.revisionId.isSome && record.outcome.storedKind == some .hypothesis)
    | throw (.review "only a stored hypothesis can be promoted")
  raiseFirst [
    (record.status == .promoted, .review "already promoted"),
    (decide (evidence.length < record.outcome.requiredEvidence),
      .review ("promotion needs " ++ toString record.outcome.requiredEvidence ++
        " pieces of evidence, got " ++ toString evidence.length))]
  let memoryId ← review.memoryOf (record.revisionId.getD 0)
  let some _ := MemoryLedger.current review.ledger memoryId | throw .assertion
  let (revision, next) ←
    review.write record.proposal (semantic record.outcome) now .approved evidence
  let updated := { record with
    status := .promoted
    decidedAt := now
    reviewedBy := none
    promotedToRevisionId := some revision.revisionId }
  pure (updated, next.setRecord updated)

def promote (proposalId : Nat) (evidence : List EvidenceLink) (now : Instant) :
    Except MemoryFailure ProposalRecord × MemoryReview :=
  review.atomically (review.promoteCall proposalId evidence now)

def currentFor (revisionId : Nat) (refusal : String) :
    Except MemoryFailure MemoryRevision := do
  let memoryId ← review.memoryOf revisionId
  let some current :=
      (MemoryLedger.current review.ledger memoryId).filter (·.revisionId == revisionId)
    | throw (.review refusal)
  pure current

/-- The next revision of a memory before its own fields are set; `model_copy`
runs no validator. -/
def nextRevisionOf (current : MemoryRevision) (now : Instant) : MemoryRevision :=
  { current with
    revisionId := review.nextRevision
    revisionNumber := current.revisionNumber + 1
    supersedesRevisionId := some current.revisionId
    recordedAt := now }

/-- `except MemoryError as error: raise ReviewError(str(error))` -/
def asReviewError : MemoryFailure → MemoryFailure
  | .memory message => .review message
  | failure => failure

def correctCall (revisionId : Nat) (claim : String) (now : Instant) :
    Except MemoryFailure (MemoryRevision × MemoryReview) := do
  let current ← review.currentFor revisionId
    "only the current revision of a memory can be corrected"
  let revision := { review.nextRevisionOf current now with claim := claim }
  let ledger ← (MemoryLedger.append review.ledger revision).mapError asReviewError
  pure (revision, { review with ledger := ledger, nextRevision := review.nextRevision + 1 })

def correct (revisionId : Nat) (claim : String) (now : Instant) :
    Except MemoryFailure MemoryRevision × MemoryReview :=
  review.atomically (review.correctCall revisionId claim now)

def expireCall (revisionId : Nat) (time now : Instant) :
    Except MemoryFailure (MemoryRevision × MemoryReview) := do
  let current ← review.currentFor revisionId
    "only the current revision of a memory can be expired"
  let revision := { review.nextRevisionOf current now with validTo := some time }
  let ledger ← MemoryLedger.append review.ledger revision
  pure (revision, { review with ledger := ledger, nextRevision := review.nextRevision + 1 })

def expire (revisionId : Nat) (time now : Instant) :
    Except MemoryFailure MemoryRevision × MemoryReview :=
  review.atomically (review.expireCall revisionId time now)

end MemoryReview

/-! ## Runs -/

inductive ReviewCall
  | propose (proposal : MemoryProposal) (evidence : List EvidenceLink) (now : Instant)
  | approve (proposalId : Nat) (reviewer : String) (evidence : List EvidenceLink) (now : Instant)
  | reject (proposalId : Nat) (reviewer : String) (now : Instant)
  | promote (proposalId : Nat) (evidence : List EvidenceLink) (now : Instant)
  | correct (revisionId : Nat) (claim : String) (now : Instant)
  | expire (revisionId : Nat) (time now : Instant)

def ReviewCall.perform (patterns : Patterns) (review : MemoryReview) :
    ReviewCall → Bool × MemoryReview
  | propose proposal evidence now =>
    let (result, next) := review.propose patterns proposal evidence now
    (result.isOk, next)
  | approve proposalId reviewer evidence now =>
    let (result, next) := review.approve proposalId reviewer evidence now
    (result.isOk, next)
  | reject proposalId reviewer now =>
    let (result, next) := review.reject proposalId reviewer now
    (result.isOk, next)
  | promote proposalId evidence now =>
    let (result, next) := review.promote proposalId evidence now
    (result.isOk, next)
  | correct revisionId claim now =>
    let (result, next) := review.correct revisionId claim now
    (result.isOk, next)
  | expire revisionId time now =>
    let (result, next) := review.expire revisionId time now
    (result.isOk, next)

def ReviewStep (patterns : Patterns) (review : MemoryReview) (label : ReviewCall × Bool)
    (next : MemoryReview) : Prop :=
  label.1.perform patterns review = (label.2, next)

end TamForge.Memory
