import TamForge.Models.Base
import TamForge.ProofSupport.Checks

/-!
# Memory revisions and their ledger

The contract of `tamforge_protocol/memory.py`: what one revision has to satisfy,
and the append-only ledger.  The ledger takes revision objects as they are; their
own validators ran when the constructor made them, and not when a copy did.
-/

namespace TamForge.Memory

open Models ProofSupport

inductive MemoryKind
  | episodic | semantic | hypothesis | procedural
deriving DecidableEq

inductive MemoryScope
  | global | role | roadmap | activity | case_ | opportunity | interview
deriving DecidableEq

def MemoryScope.text : MemoryScope → String
  | global => "global"
  | role => "role"
  | roadmap => "roadmap"
  | activity => "activity"
  | case_ => "case"
  | opportunity => "opportunity"
  | interview => "interview"

inductive Sensitivity
  | routine | personal | realInterview
deriving DecidableEq

/-- `SENSITIVITY_RANK` -/
def Sensitivity.rank : Sensitivity → Nat
  | routine => 0
  | personal => 1
  | realInterview => 2

inductive Role
  | planner | tutor | coach | reviewer | analyst | interviewer
deriving DecidableEq

inductive EvidenceKind
  | activity | assessment | interview | conversation | report | userStatement
deriving DecidableEq

inductive Approval
  | proposed | approved | rejected
deriving DecidableEq

structure EvidenceLink where
  kind : EvidenceKind
  referenceId : Nat
  positive : 0 < referenceId

/-- `author` of a provenance: a role, or the learner. -/
inductive ProvenanceAuthor
  | role (role : Role)
  | learner
deriving DecidableEq

structure Provenance where
  author : ProvenanceAuthor
  modelRunId : Option Int

structure MemoryRevision where
  memoryId : Nat
  revisionId : Nat
  revisionNumber : Nat
  kind : MemoryKind
  scope : MemoryScope
  scopeReferenceId : Option Nat
  claim : String
  /-- In tenths. -/
  confidence : Nat
  sensitivity : Sensitivity
  visibleTo : List Role
  evidence : List EvidenceLink
  provenance : Provenance
  validFrom : Instant
  validTo : Option Instant
  expiresAt : Option Instant
  supersedesRevisionId : Option Nat
  contradictsRevisionIds : List Nat
  approval : Approval
  recordedAt : Instant

/-- `\S` of the patterns that pydantic compiles: not Unicode `White_Space`. -/
def isWhiteSpace (c : Char) : Bool :=
  let n := c.toNat
  (decide (9 ≤ n) && decide (n ≤ 13)) || (decide (8192 ≤ n) && decide (n ≤ 8202)) ||
    [32, 133, 160, 5760, 8232, 8233, 8239, 8287, 12288].contains n

/-- `Text`: 1 to 2000 characters, one of them not white space. -/
def isText (text : String) : Bool :=
  decide (text.length ≤ 2000) && text.toList.any fun c => !isWhiteSpace c

inductive MemoryFailure
  | validation (message : String)
  | overflow
  | memory (message : String)
  | review (message : String)
  | assertion

/-- `Provenance(...)` -/
def Provenance.validate (provenance : Provenance) : Except MemoryFailure Unit :=
  raiseFirst [
    (provenance.modelRunId.any fun run => decide (run ≤ 0), .validation "model_run_id"),
    (provenance.author == .learner && provenance.modelRunId.isSome,
      .validation "a learner statement has no model run behind it")]

/-- `MemoryRevision(...)`: the bounds of the fields, then the validators in their
order. -/
def MemoryRevision.validate (revision : MemoryRevision) : Except MemoryFailure Unit :=
  raiseFirst [
    (decide (revision.memoryId = 0), .validation "memory_id"),
    (decide (revision.revisionId = 0), .validation "revision_id"),
    (decide (revision.revisionNumber = 0), .validation "revision_number"),
    (!isText revision.claim, .validation "claim"),
    (decide (10 < revision.confidence), .validation "confidence"),
    (revision.scopeReferenceId == some 0, .validation "scope_reference_id"),
    (revision.supersedesRevisionId == some 0, .validation "supersedes_revision_id"),
    (revision.contradictsRevisionIds.contains 0, .validation "contradicts_revision_ids"),
    (revision.evidence.isEmpty,
      .validation "a memory with no evidence is an opinion; name what it rests on"),
    (revision.scope == .global && revision.scopeReferenceId.isSome,
      .validation "a global memory points at nothing"),
    (revision.scope != .global && revision.scopeReferenceId.isNone,
      .validation ("a " ++ revision.scope.text ++ "-scoped memory must name which " ++
        revision.scope.text)),
    (revision.visibleTo.isEmpty,
      .validation "a memory no role may see is a memory nobody can act on"),
    (revision.revisionNumber == 1 && revision.supersedesRevisionId.isSome,
      .validation "the first revision of a memory has nothing to supersede"),
    (decide (1 < revision.revisionNumber) && revision.supersedesRevisionId.isNone,
      .validation "a later revision must name the revision it supersedes"),
    (revision.supersedesRevisionId == some revision.revisionId,
      .validation "a revision cannot supersede itself"),
    (revision.validTo.any fun time => decide (time ≤ revision.validFrom),
      .validation "valid_to must come after valid_from"),
    (revision.expiresAt.any fun time => decide (time ≤ revision.validFrom),
      .validation "expires_at must come after valid_from"),
    (revision.kind == .hypothesis && revision.approval == .approved,
      .validation "a hypothesis is a guess; confirming it means writing a semantic memory"),
    (revision.kind == .episodic && revision.expiresAt.isSome,
      .validation "something that happened never becomes false; episodes do not expire")]

def MemoryRevision.inForce (revision : MemoryRevision) (time : Instant) : Bool :=
  decide (revision.validFrom ≤ time) &&
    !(revision.validTo.any fun stop => decide (stop ≤ time)) &&
    !(revision.expiresAt.any fun stop => decide (stop ≤ time))

/-! ## The ledger -/

abbrev MemoryLedger := List MemoryRevision

namespace MemoryLedger

variable (ledger : MemoryLedger)

def history (memoryId : Nat) : List MemoryRevision :=
  ledger.filter fun revision => revision.memoryId == memoryId

def current (memoryId : Nat) : Option MemoryRevision :=
  (history ledger memoryId).getLast?

/-- The checks of `append` against the history of the memory. -/
def appendChecks (revision : MemoryRevision) : Except MemoryFailure Unit :=
  match (history ledger revision.memoryId).getLast? with
  | none =>
    raiseFirst [(revision.revisionNumber != 1, .memory "a memory starts at revision 1")]
  | some latest =>
    raiseFirst [
      (revision.revisionNumber != latest.revisionNumber + 1,
        .memory ("expected revision " ++ toString (latest.revisionNumber + 1) ++ ", got " ++
          toString revision.revisionNumber)),
      (revision.supersedesRevisionId != some latest.revisionId,
        .memory "a new revision must supersede the current one, not an older one"),
      (revision.kind != latest.kind,
        .memory "a memory keeps its kind; a different kind is a different memory")]

/-- The new ledger object checks that its identities are distinct, which the
first check has ensured already. -/
def append (revision : MemoryRevision) : Except MemoryFailure MemoryLedger := do
  raiseFirst [(ledger.any fun existing => existing.revisionId == revision.revisionId,
    .memory ("revision " ++ toString revision.revisionId ++
      " already exists and cannot be rewritten"))]
  appendChecks ledger revision
  raiseFirst (revision.contradictsRevisionIds.map fun contradicted =>
    (!(ledger.any fun existing => existing.revisionId == contradicted),
      .memory ("cannot contradict revision " ++ toString contradicted ++
        ": it is not in the ledger")))
  pure (ledger ++ [revision])

/-- The current, approved revisions in force that a role may read at a ceiling,
of one scope if one is asked for. -/
def visible (role : Role) (time : Instant) (ceiling : Sensitivity)
    (scope : Option (MemoryScope × Option Nat)) : List MemoryRevision :=
  ((ledger.map MemoryRevision.memoryId).eraseDups.filterMap (current ledger)).filter
    fun revision => revision.approval == .approved && revision.visibleTo.contains role &&
      decide (revision.sensitivity.rank ≤ ceiling.rank) && revision.inForce time &&
      scope.all fun asked => revision.scope == asked.1 && revision.scopeReferenceId == asked.2

end MemoryLedger

end TamForge.Memory
