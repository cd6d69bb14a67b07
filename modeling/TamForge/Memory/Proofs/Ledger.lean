import Mathlib.Data.List.Nodup
import Mathlib.Data.List.Infix
import TamForge.Memory.Service

/-!
# The ledger under review

What each call does to the ledger, and the invariant that the calls keep: every
revision satisfies its validators, identities are distinct, and the revisions of
a memory form a chain.
-/

namespace TamForge.Memory

open Models ProofSupport

variable {patterns : Patterns} {review next : MemoryReview} {revision current : MemoryRevision}
  {ledger : MemoryLedger} {call : ReviewCall} {returned : Bool}

/-! ## Appending -/

theorem history_append (ledger : MemoryLedger) (revision : MemoryRevision) (memoryId : Nat) :
    MemoryLedger.history (ledger ++ [revision]) memoryId =
      if revision.memoryId = memoryId then
        MemoryLedger.history ledger memoryId ++ [revision]
      else MemoryLedger.history ledger memoryId := by
  unfold MemoryLedger.history
  rw [List.filter_append]
  by_cases hsame : revision.memoryId = memoryId
  · simp [hsame]
  · simp [hsame]

theorem append_ok {after : MemoryLedger} (h : MemoryLedger.append ledger revision = .ok after) :
    after = ledger ++ [revision] ∧ ∀ old ∈ ledger, old.revisionId ≠ revision.revisionId := by
  simp only [MemoryLedger.append, bind_ok_iff] at h
  obtain ⟨_, hnew, _, -, _, -, ha⟩ := h
  cases ha
  refine ⟨rfl, ?_⟩
  intro old hold hsame
  have hnone := raiseFirst_eq_ok.mp hnew _ (List.mem_singleton.mpr rfl)
  simp only [List.any_eq_false, beq_iff_eq] at hnone
  exact hnone old hold hsame

/-- When an append is accepted: the identity is new and the revision continues the
history of its memory. -/
theorem append_of (hnew : ∀ old ∈ ledger, old.revisionId ≠ revision.revisionId)
    (hchk : MemoryLedger.appendChecks ledger revision = .ok ())
    (hcontradicts : revision.contradictsRevisionIds = []) :
    MemoryLedger.append ledger revision = .ok (ledger ++ [revision]) := by
  have hgrd : raiseFirst [(ledger.any fun old => old.revisionId == revision.revisionId,
      MemoryFailure.memory ("revision " ++ toString revision.revisionId ++
        " already exists and cannot be rewritten"))] = .ok () := by
    rw [raiseFirst_eq_ok]
    intro check hcheck
    rw [List.mem_singleton.mp hcheck, List.any_eq_false]
    intro old hold
    simpa using hnew old hold
  simp only [MemoryLedger.append, bind, Except.bind, hgrd, hchk, hcontradicts, List.map_nil,
    raiseFirst_nil]
  rfl

/-! ## What a call does -/

/-- The ledger after a call: as before, with the first revision of a new memory,
or with the next revision of a memory. -/
inductive Effect (review : MemoryReview) : ReviewCall → MemoryReview → Prop
  | kept {call : ReviewCall} {next : MemoryReview} (ledger : next.ledger = review.ledger)
      (memory : next.nextMemory = review.nextMemory)
      (revision : next.nextRevision = review.nextRevision) : Effect review call next
  | written {call : ReviewCall} {next : MemoryReview} (revision : MemoryRevision)
      (ledger : next.ledger = review.ledger ++ [revision])
      (memory : next.nextMemory = review.nextMemory + 1)
      (nextRevision : next.nextRevision = review.nextRevision + 1)
      (valid : revision.validate = .ok ()) (provenance : revision.provenance.validate = .ok ())
      (memoryId : revision.memoryId = review.nextMemory)
      (revisionId : revision.revisionId = review.nextRevision)
      (number : revision.revisionNumber = 1) (first : revision.supersedesRevisionId = none) :
      Effect review call next
  | corrected (current : MemoryRevision) (claim : String) (now : Instant)
      (found : MemoryLedger.current review.ledger current.memoryId = some current) :
      Effect review (.correct current.revisionId claim now)
        { review with
          ledger := review.ledger ++ [{ review.nextRevisionOf current now with claim := claim }]
          nextRevision := review.nextRevision + 1 }
  | expired (current : MemoryRevision) (time now : Instant)
      (found : MemoryLedger.current review.ledger current.memoryId = some current) :
      Effect review (.expire current.revisionId time now)
        { review with
          ledger := review.ledger ++
            [{ review.nextRevisionOf current now with validTo := some time }]
          nextRevision := review.nextRevision + 1 }

variable {proposal : MemoryProposal} {outcome : PolicyOutcome} {now : Instant} {approval : Approval}
  {evidence : List EvidenceLink}

theorem write_ok (h : review.write proposal outcome now approval evidence = .ok (revision, next)) :
    ∃ kind expiresAt, outcome.storedKind = some kind ∧
      outcome.retention.mapM (addTime now) = .ok expiresAt ∧
      revision = review.revisionOf proposal outcome kind now approval evidence expiresAt ∧
      revision.validate = .ok () ∧ revision.provenance.validate = .ok () ∧
      next = { review with
        ledger := review.ledger ++ [revision]
        nextMemory := review.nextMemory + 1
        nextRevision := review.nextRevision + 1 } := by
  unfold MemoryReview.write at h
  cases hkind : outcome.storedKind with
  | none =>
    rw [hkind] at h
    cases h
  | some kind =>
    rw [hkind] at h
    simp only [bind_ok_iff] at h
    obtain ⟨_, hprov, expiresAt, hexps, _, hval, ledger, happ, hpure⟩ := h
    cases hpure
    exact ⟨kind, expiresAt, rfl, hexps, rfl, hval, hprov, by
      rw [(append_ok happ).1]⟩

theorem written_of_write {after : MemoryReview}
    (h : review.write proposal outcome now approval evidence = .ok (revision, next))
    (hldg : after.ledger = next.ledger) (hmemo : after.nextMemory = next.nextMemory)
    (hrevn : after.nextRevision = next.nextRevision) : Effect review call after := by
  obtain ⟨kind, expiresAt, -, -, hrow, hval, hprov, hnext⟩ := write_ok h
  subst hnext
  exact .written revision hldg hmemo hrevn hval hprov (by rw [hrow]; rfl)
    (by rw [hrow]; rfl) (by rw [hrow]; rfl) (by rw [hrow]; rfl)

theorem propose_effect (proposal : MemoryProposal) (evidence : List EvidenceLink) (now : Instant) :
    Effect review call (review.propose patterns proposal evidence now).2 := by
  unfold MemoryReview.propose
  simp only
  split
  · exact .kept rfl rfl rfl
  · cases hwr : MemoryReview.writtenApproval (proposal.decide patterns).decision with
    | none => exact .kept rfl rfl rfl
    | some approval =>
      simp only
      cases hwrite : MemoryReview.write { review with nextProposal := review.nextProposal + 1 }
          proposal (proposal.decide patterns) now approval evidence with
      | error failure => exact .kept rfl rfl rfl
      | ok written =>
        obtain ⟨revision, counted⟩ := written
        obtain ⟨kind, expiresAt, -, -, hrow, hval, hprov, rfl⟩ := write_ok hwrite
        exact .written revision rfl rfl rfl hval hprov (by rw [hrow]; rfl)
          (by rw [hrow]; rfl) (by rw [hrow]; rfl) (by rw [hrow]; rfl)

theorem atomically_effect {α : Type} {att : Except MemoryFailure (α × MemoryReview)}
    (h : ∀ res after, att = .ok (res, after) → Effect review call after) :
    Effect review call (review.atomically att).2 := by
  cases hatt : att with
  | error failure => exact .kept rfl rfl rfl
  | ok pair => exact h pair.1 pair.2 hatt

variable {proposalId : Nat} {reviewer : String} {updated : ProposalRecord}

theorem approve_ok {after : MemoryReview}
    (h : review.approveCall proposalId reviewer evidence now = .ok (updated, after)) :
    ∃ record revision written, review.record? proposalId = some record ∧
      review.write record.proposal (MemoryReview.confirmed record) now .approved evidence =
        .ok (revision, written) ∧
      updated.proposal = record.proposal ∧ updated.outcome = record.outcome ∧
      updated.status = .approved ∧ after = written.setRecord updated := by
  unfold MemoryReview.approveCall at h
  cases hrec : (review.record? proposalId).filter (·.status == .pendingApproval) with
  | none =>
    rw [hrec] at h
    cases h
  | some pending =>
    rw [hrec] at h
    simp only [bind_ok_iff] at h
    obtain ⟨_, -, ⟨revision, written⟩, hwrite, hpure⟩ := h
    cases hpure
    exact ⟨pending, revision, written, (Option.filter_eq_some_iff.mp hrec).1, hwrite, rfl, rfl,
      rfl, rfl⟩

theorem approve_effect {after : MemoryReview}
    (h : review.approveCall proposalId reviewer evidence now = .ok (updated, after)) :
    Effect review call after := by
  obtain ⟨record, revision, written, -, hwrite, -, -, -, rfl⟩ := approve_ok h
  exact written_of_write hwrite rfl rfl rfl

theorem reject_ok {after : MemoryReview}
    (h : review.rejectCall proposalId reviewer now = .ok (updated, after)) :
    ∃ record, review.record? proposalId = some record ∧
      updated.proposal = record.proposal ∧ updated.outcome = record.outcome ∧
      updated.status = .rejected ∧ after = review.setRecord updated := by
  unfold MemoryReview.rejectCall at h
  cases hrec : (review.record? proposalId).filter (·.status == .pendingApproval) with
  | none =>
    rw [hrec] at h
    cases h
  | some pending =>
    rw [hrec] at h
    cases h
    exact ⟨pending, (Option.filter_eq_some_iff.mp hrec).1, rfl, rfl, rfl, rfl⟩

theorem reject_effect {after : MemoryReview}
    (h : review.rejectCall proposalId reviewer now = .ok (updated, after)) :
    Effect review call after := by
  obtain ⟨record, -, -, -, -, rfl⟩ := reject_ok h
  exact .kept rfl rfl rfl

theorem promote_ok {after : MemoryReview}
    (h : review.promoteCall proposalId evidence now = .ok (updated, after)) :
    ∃ record revision written, review.record? proposalId = some record ∧
      record.revisionId.isSome = true ∧ record.outcome.storedKind = some .hypothesis ∧
      review.write record.proposal (MemoryReview.semantic record.outcome) now .approved evidence =
        .ok (revision, written) ∧
      updated.proposal = record.proposal ∧ updated.outcome = record.outcome ∧
      updated.status = .promoted ∧ after = written.setRecord updated := by
  unfold MemoryReview.promoteCall at h
  cases hrec : (review.record? proposalId).filter
      (fun record => record.revisionId.isSome && record.outcome.storedKind == some .hypothesis) with
  | none =>
    rw [hrec] at h
    cases h
  | some record =>
    rw [hrec] at h
    obtain ⟨hf, hsto⟩ := Option.filter_eq_some_iff.mp hrec
    rw [Bool.and_eq_true, beq_iff_eq] at hsto
    simp only [bind_ok_iff] at h
    obtain ⟨_, -, memoryId, -, h⟩ := h
    cases hcur : MemoryLedger.current review.ledger memoryId with
    | none =>
      rw [hcur] at h
      cases h
    | some hypothesis =>
      rw [hcur] at h
      simp only [bind_ok_iff] at h
      obtain ⟨⟨revision, written⟩, hwrite, hpure⟩ := h
      cases hpure
      exact ⟨record, revision, written, hf, hsto.1, hsto.2, hwrite, rfl, rfl, rfl,
        rfl⟩

theorem promote_effect {after : MemoryReview}
    (h : review.promoteCall proposalId evidence now = .ok (updated, after)) :
    Effect review call after := by
  obtain ⟨record, revision, written, -, -, -, hwrite, -, -, -, rfl⟩ := promote_ok h
  exact written_of_write hwrite rfl rfl rfl

variable {revisionId : Nat}

theorem currentFor_ok {refusal : String} (h : review.currentFor revisionId refusal = .ok current) :
    MemoryLedger.current review.ledger current.memoryId = some current ∧
      current.revisionId = revisionId := by
  simp only [MemoryReview.currentFor, bind_ok_iff] at h
  obtain ⟨memoryId, -, h⟩ := h
  cases hcur : (MemoryLedger.current review.ledger memoryId).filter
      (·.revisionId == revisionId) with
  | none =>
    rw [hcur] at h
    cases h
  | some found =>
    rw [hcur] at h
    cases h
    obtain ⟨hlast, hid⟩ := Option.filter_eq_some_iff.mp hcur
    have hmemo : current.memoryId = memoryId := by
      have hmem := List.mem_of_getLast? hlast
      simpa using (List.mem_filter.mp hmem).2
    exact ⟨hmemo ▸ hlast, by simpa using hid⟩

variable {claim : String}

theorem correct_effect {after : MemoryReview}
    (h : review.correctCall revisionId claim now = .ok (revision, after)) :
    Effect review (.correct revisionId claim now) after := by
  simp only [MemoryReview.correctCall, bind_ok_iff] at h
  obtain ⟨current, hcur, ledger, happ, hpure⟩ := h
  cases hpure
  obtain ⟨hf, rfl⟩ := currentFor_ok hcur
  rw [(append_ok (mapError_ok_iff.mp happ)).1]
  exact .corrected current claim now hf

theorem expire_effect {time : Instant} {after : MemoryReview}
    (h : review.expireCall revisionId time now = .ok (revision, after)) :
    Effect review (.expire revisionId time now) after := by
  simp only [MemoryReview.expireCall, bind_ok_iff] at h
  obtain ⟨current, hcur, ledger, happ, hpure⟩ := h
  cases hpure
  obtain ⟨hf, rfl⟩ := currentFor_ok hcur
  rw [(append_ok happ).1]
  exact .expired current time now hf

theorem step_effect (h : ReviewStep patterns review (call, returned) next) :
    Effect review call next := by
  have hnext : (call.perform patterns review).2 = next := by
    rw [h]
  subst hnext
  cases call with
  | propose proposal evidence now => exact propose_effect proposal evidence now
  | approve proposalId reviewer evidence now =>
    exact atomically_effect fun _ _ => approve_effect
  | reject proposalId reviewer now => exact atomically_effect fun _ _ => reject_effect
  | promote proposalId evidence now => exact atomically_effect fun _ _ => promote_effect
  | correct revisionId claim now => exact atomically_effect fun _ _ => correct_effect
  | expire revisionId time now => exact atomically_effect fun _ _ => expire_effect

theorem Effect.prefix_ledger (h : Effect review call next) : review.ledger <+: next.ledger := by
  cases h with
  | kept ledger => exact ledger ▸ List.prefix_refl _
  | written revision ledger => exact ledger ▸ List.prefix_append _ _
  | corrected | expired => exact List.prefix_append _ _

/-! ## The invariant -/

structure Chained (revisions : List MemoryRevision) : Prop where
  numbers : revisions.map MemoryRevision.revisionNumber = List.range' 1 revisions.length
  supersedes : revisions.map MemoryRevision.supersedesRevisionId =
    (none :: revisions.map fun revision => some revision.revisionId).take revisions.length

theorem Chained.nil : Chained [] := ⟨rfl, rfl⟩

variable {revisions : List MemoryRevision}

theorem Chained.last_number (h : Chained revisions) (hlast : revisions.getLast? = some current) :
    current.revisionNumber = revisions.length := by
  have hnumbers := congrArg List.getLast? h.numbers
  rw [List.getLast?_map, hlast, List.getLast?_range'] at hnumbers
  have hne : revisions.length ≠ 0 := by
    intro hzero
    rw [List.length_eq_zero_iff.mp hzero] at hlast
    cases hlast
  simp only [Option.map_some, hne, if_false, Option.some.injEq] at hnumbers
  omega

theorem Chained.first (hnum : revision.revisionNumber = 1)
    (hfst : revision.supersedesRevisionId = none) : Chained [revision] where
  numbers := by simp [hnum]
  supersedes := by simp [hfst]

theorem Chained.snoc (h : Chained revisions) (hlast : revisions.getLast? = some current)
    (hnum : revision.revisionNumber = current.revisionNumber + 1)
    (hsupersedes : revision.supersedesRevisionId = some current.revisionId) :
    Chained (revisions ++ [revision]) := by
  have hcnt := h.last_number hlast
  obtain ⟨init, rfl⟩ := List.getLast?_eq_some_iff.mp hlast
  constructor
  · have hlen : (init ++ [current] ++ [revision]).length = (init ++ [current]).length + 1 :=
      List.length_append
    rw [List.map_append, h.numbers, hlen, List.range'_concat, Nat.one_mul, Nat.add_comm 1]
    simp only [List.map_cons, List.map_nil, hnum, hcnt]
  · rw [List.map_append, h.supersedes]
    simp [hsupersedes, List.take_append, List.take_of_length_le]

structure Counted (review : MemoryReview) : Prop where
  revisionBound : ∀ revision ∈ review.ledger, revision.revisionId < review.nextRevision
  memoryBound : ∀ revision ∈ review.ledger, revision.memoryId < review.nextMemory
  counters : 0 < review.nextMemory ∧ 0 < review.nextRevision

structure Sound (review : MemoryReview) : Prop extends Counted review where
  valid : ∀ revision ∈ review.ledger, revision.validate = .ok () ∧
    revision.provenance.validate = .ok ()
  ids : (review.ledger.map MemoryRevision.revisionId).Nodup
  chained : ∀ memoryId, Chained (MemoryLedger.history review.ledger memoryId)

theorem sound_empty : Sound emptyReview where
  revisionBound := by simp [emptyReview]
  memoryBound := by simp [emptyReview]
  counters := ⟨Nat.one_pos, Nat.one_pos⟩
  valid := by simp [emptyReview]
  ids := List.nodup_nil
  chained := fun _ => Chained.nil

theorem Counted.extend (h : Counted review) (hldg : next.ledger = review.ledger ++ [revision])
    (hid : revision.revisionId = review.nextRevision)
    (hrevn : next.nextRevision = review.nextRevision + 1)
    (hmemo : review.nextMemory ≤ next.nextMemory) (hbound : revision.memoryId < next.nextMemory) :
    Counted next := by
  have hcases : ∀ other ∈ next.ledger, other ∈ review.ledger ∨ other = revision := by
    intro other ho
    rw [hldg] at ho
    rcases List.mem_append.mp ho with hold | hnew
    · exact Or.inl hold
    · exact Or.inr (List.mem_singleton.mp hnew)
  constructor
  · intro other ho
    rw [hrevn]
    rcases hcases other ho with hold | rfl
    · have hlt := h.revisionBound other hold
      omega
    · omega
  · intro other ho
    rcases hcases other ho with hold | rfl
    · have hlt := h.memoryBound other hold
      omega
    · exact hbound
  · have hcounters := h.counters
    omega

theorem Sound.extend (h : Sound review) (hldg : next.ledger = review.ledger ++ [revision])
    (hval : revision.validate = .ok ()) (hprov : revision.provenance.validate = .ok ())
    (hid : revision.revisionId = review.nextRevision)
    (hrevn : next.nextRevision = review.nextRevision + 1)
    (hmemo : review.nextMemory ≤ next.nextMemory) (hbound : revision.memoryId < next.nextMemory)
    (hchained : Chained (MemoryLedger.history review.ledger revision.memoryId ++ [revision])) :
    Sound next := by
  refine ⟨h.toCounted.extend hldg hid hrevn hmemo hbound, ?_, ?_, ?_⟩
  · intro other ho
    rw [hldg] at ho
    rcases List.mem_append.mp ho with hold | hnew
    · exact h.valid other hold
    · rw [List.mem_singleton.mp hnew]
      exact ⟨hval, hprov⟩
  · rw [hldg, List.map_append, List.nodup_append]
    refine ⟨h.ids, by simp, ?_⟩
    intro id hmem other ho
    obtain ⟨old, hold, rfl⟩ := List.mem_map.mp hmem
    rw [List.map_singleton, List.mem_singleton] at ho
    have hlt := h.revisionBound old hold
    omega
  · intro memoryId
    rw [hldg, history_append]
    by_cases hsame : revision.memoryId = memoryId
    · rw [if_pos hsame, ← hsame]
      exact hchained
    · rw [if_neg hsame]
      exact h.chained memoryId

theorem Counted.history_next (h : Counted review) :
    MemoryLedger.history review.ledger review.nextMemory = [] := by
  apply List.filter_eq_nil_iff.mpr
  intro revision hrevn hsame
  have hlt := h.memoryBound revision hrevn
  rw [beq_iff_eq] at hsame
  omega

theorem mem_of_current {memoryId : Nat}
    (h : MemoryLedger.current ledger memoryId = some current) : current ∈ ledger :=
  List.mem_of_mem_filter (List.mem_of_getLast? h)

theorem validate_iff : revision.validate = .ok () ↔
    (revision.memoryId ≠ 0 ∧ revision.revisionId ≠ 0 ∧ revision.revisionNumber ≠ 0) ∧
    (isText revision.claim = true ∧ revision.confidence ≤ 10 ∧
      revision.scopeReferenceId ≠ some 0 ∧ revision.supersedesRevisionId ≠ some 0 ∧
      0 ∉ revision.contradictsRevisionIds ∧ revision.evidence ≠ []) ∧
    ((revision.scope = .global → revision.scopeReferenceId = none) ∧
      (revision.scope ≠ .global → revision.scopeReferenceId ≠ none) ∧
      revision.visibleTo ≠ []) ∧
    ((revision.revisionNumber = 1 → revision.supersedesRevisionId = none) ∧
      (revision.revisionNumber ≤ 1 ∨ revision.supersedesRevisionId ≠ none) ∧
      revision.supersedesRevisionId ≠ some revision.revisionId) ∧
    ((∀ time, revision.validTo = some time → revision.validFrom < time) ∧
      ∀ time, revision.expiresAt = some time → revision.validFrom < time) ∧
    (revision.kind = .hypothesis → revision.approval ≠ .approved) ∧
    (revision.kind = .episodic → revision.expiresAt = none) := by
  simp only [MemoryRevision.validate, raiseFirst_eq_ok, List.forall_mem_cons, List.not_mem_nil,
    false_implies, implies_true, and_true, decide_eq_false_iff_not, Bool.not_eq_false',
    beq_eq_false_iff_ne, Bool.and_eq_false_iff, Option.any_eq_false, not_lt, not_le,
    List.contains_eq_mem, List.isEmpty_eq_false_iff, bne_eq_false_iff_eq,
    Option.isSome_eq_false_iff, Option.isNone_eq_false_iff, Option.isNone_iff_eq_none,
    Option.isSome_iff_ne_none, and_assoc, ← or_iff_not_imp_left, ← imp_iff_not_or, ne_eq]

variable {validTo : Option Instant}

/-- The next revision of a memory passes the validators when its own field
does. -/
theorem Sound.next_valid (h : Sound review) (hcur : current ∈ review.ledger) (now : Instant)
    (hclaim : isText claim = true) (htime : ∀ time, validTo = some time → current.validFrom < time)
    :
    MemoryRevision.validate { review.nextRevisionOf current now with
      claim := claim, validTo := validTo } = .ok () := by
  obtain ⟨hids, ⟨-, hconfidence, hreference, -, hcontradicts, hevi⟩, hscope, -,
    ⟨-, hexps⟩, happroval, hep⟩ := validate_iff.mp (h.valid current hcur).1
  have hlt := h.revisionBound current hcur
  have hcounters := h.counters
  rw [validate_iff]
  simp only [MemoryReview.nextRevisionOf]
  refine ⟨⟨hids.1, by omega, by omega⟩,
    ⟨hclaim, hconfidence, hreference, ?_, hcontradicts, hevi⟩, hscope,
    ⟨fun hone => absurd hone (by omega), Or.inr (by simp), ?_⟩, ⟨htime, hexps⟩, happroval,
    hep⟩
  · rw [ne_eq, Option.some.injEq]
    exact hids.2.1
  · rw [ne_eq, Option.some.injEq]
    omega

theorem Sound.revised (h : Sound review)
    (hcur : MemoryLedger.current review.ledger current.memoryId = some current) (now : Instant)
    (hclaim : isText claim = true) (htime : ∀ time, validTo = some time → current.validFrom < time)
    :
    Sound { review with
      ledger := review.ledger ++ [{ review.nextRevisionOf current now with
        claim := claim, validTo := validTo }]
      nextRevision := review.nextRevision + 1 } := by
  have hmem := mem_of_current hcur
  refine h.extend rfl (h.next_valid hmem now hclaim htime) (h.valid current hmem).2 rfl rfl
    (Nat.le_refl _) (h.memoryBound current hmem) ?_
  exact (h.chained current.memoryId).snoc hcur rfl rfl

/-! ## Careful calls -/

/-- A proposal that the policy writes at once, with what its first revision has
to satisfy. -/
structure ProposalFits (patterns : Patterns) (proposal : MemoryProposal)
    (evidence : List EvidenceLink) (now : Instant) : Prop where
  claim : proposal.claim.length ≤ 2000
  evidence : evidence ≠ []
  kind : (proposal.decide patterns).decision = .autoAccept → proposal.kind ≠ .hypothesis
  run : ∀ run, proposal.author.isRole = true → proposal.modelRunId = some run → 0 < run
  time : ∀ delta, (proposal.decide patterns).retention = some delta → now + delta ≤ datetimeMax

/-- What callers have to see to themselves: a proposal written at once fits, a
corrected claim is a text, and an expiry comes after the memory began. -/
def Careful (patterns : Patterns) (review : MemoryReview) : ReviewCall → Prop
  | .propose proposal evidence now =>
    (MemoryReview.writtenApproval (proposal.decide patterns).decision).isSome = true →
      ProposalFits patterns proposal evidence now
  | .correct _ claim _ => isText claim = true
  | .expire revisionId time _ => ∀ revision ∈ review.ledger,
      revision.revisionId = revisionId → revision.validFrom < time
  | .approve .. | .reject .. | .promote .. => True

theorem Counted.kept (h : Counted review) (hldg : next.ledger = review.ledger)
    (hmemo : next.nextMemory = review.nextMemory)
    (hrevn : next.nextRevision = review.nextRevision) : Counted next := by
  constructor
  · rw [hldg, hrevn]
    exact h.revisionBound
  · rw [hldg, hmemo]
    exact h.memoryBound
  · rw [hmemo, hrevn]
    exact h.counters

theorem Counted.step (h : Counted review) (heff : Effect review call next) : Counted next := by
  cases heff with
  | kept ledger memory revision => exact h.kept ledger memory revision
  | written revision ledger memory nextRevision valid provenance memoryId revisionId =>
    exact h.extend ledger revisionId nextRevision (by omega) (by omega)
  | corrected current claim now found =>
    exact h.extend rfl rfl rfl (Nat.le_refl _) (h.memoryBound current (mem_of_current found))
  | expired current time now found =>
    exact h.extend rfl rfl rfl (Nat.le_refl _) (h.memoryBound current (mem_of_current found))

theorem Sound.step (h : Sound review) (hcare : Careful patterns review call)
    (heff : Effect review call next) : Sound next := by
  cases heff with
  | kept ledger memory revision =>
    refine ⟨h.toCounted.kept ledger memory revision, ?_, ?_, ?_⟩
    · rw [ledger]
      exact h.valid
    · rw [ledger]
      exact h.ids
    · rw [ledger]
      exact h.chained
  | written revision ledger memory nextRevision valid provenance memoryId revisionId number first =>
    refine h.extend ledger valid provenance revisionId nextRevision (by omega) (by omega) ?_
    rw [memoryId, h.history_next]
    exact Chained.first number first
  | corrected current claim now found =>
    have hmem := mem_of_current found
    have htime := (validate_iff.mp (h.valid current hmem).1).2.2.2.2.1.1
    exact h.revised found now hcare htime
  | expired current time now found =>
    have hmem := mem_of_current found
    have hclaim := (validate_iff.mp (h.valid current hmem).1).2.1.1
    refine h.revised found now hclaim ?_
    intro stop hstop
    cases hstop
    exact hcare current hmem rfl

/-! ## Calls that raise -/

/-- The outcomes of the policy: a refusal, a fact under the kind that was proposed,
or a hypothesis. -/
inductive Ruled (proposal : MemoryProposal) : PolicyOutcome → Prop
  | rejected (reason : ReasonCode) : Ruled proposal (Memory.rejected reason)
  | fact (sensitive : Bool) (reason : ReasonCode) {roles : List Role}
      (hroles : roles ≠ []) : Ruled proposal (factOutcome proposal sensitive reason roles)
  | hypothesis {decision : Decision} (reason : ReasonCode) {roles : List Role}
      (hroles : roles ≠ [])
      (hdecision : decision = .requireUserApproval ∨ decision = .storeHypothesis) :
      Ruled proposal (hypothesisOutcome decision reason roles)

theorem Ruled.ite {c : Prop} [Decidable c] {other : PolicyOutcome} (h : Ruled proposal outcome)
    (h' : Ruled proposal other) : Ruled proposal (if c then outcome else other) := by
  split
  · exact h
  · exact h'

theorem decide_ruled (proposal : MemoryProposal) :
    Ruled proposal (proposal.decide patterns) := by
  have hall : allRoles ≠ [] := by decide
  have hlrn : learnerFacing ≠ [] := by decide
  have hcoach : [Role.coach] ≠ [] := by decide
  unfold MemoryProposal.decide
  dsimp only
  -- One step a branch, in the order of the policy.
  refine .ite (.rejected _) (.ite (.rejected _) (.ite (.rejected _) ?_))
  refine .ite (.rejected _) (.ite (.rejected _) ?_)
  refine .ite (.fact _ _ hall) (.ite (.fact _ _ hlrn) (.ite (.rejected _) ?_))
  refine .ite (.hypothesis _ hcoach (Or.inl rfl)) ?_
  exact .ite (.hypothesis _ hlrn (Or.inr rfl)) (.hypothesis _ hlrn (Or.inr rfl))

theorem decide_written
    (h : MemoryReview.writtenApproval (proposal.decide patterns).decision = some approval) :
    ∃ kind, (proposal.decide patterns).storedKind = some kind ∧
      (proposal.decide patterns).visibleTo ≠ [] ∧
      (proposal.decide patterns).retention = retention kind ∧
      ((approval = .approved ∧ kind = proposal.kind ∧
          (proposal.decide patterns).decision = .autoAccept) ∨
        (approval = .proposed ∧ kind = .hypothesis)) := by
  have hruled : Ruled proposal (proposal.decide patterns) := decide_ruled proposal
  generalize proposal.decide patterns = outcome at h hruled ⊢
  cases hruled with
  | rejected reason => cases h
  | fact sensitive reason hroles =>
    cases sensitive with
    | true => cases h
    | false =>
      cases h
      exact ⟨proposal.kind, rfl, hroles, rfl, Or.inl ⟨rfl, rfl, rfl⟩⟩
  | hypothesis reason hroles hdec =>
    rcases hdec with rfl | rfl
    · cases h
    · cases h
      exact ⟨.hypothesis, rfl, hroles, rfl, Or.inr ⟨rfl, rfl⟩⟩

theorem isSpace_of_isWhiteSpace {c : Char} (h : isWhiteSpace c = true) : isSpace c = true := by
  simp only [isWhiteSpace, isSpace, Bool.or_eq_true, Bool.and_eq_true, decide_eq_true_eq,
    List.contains_eq_mem, List.mem_cons, List.not_mem_nil, or_false] at h ⊢
  omega

theorem isText_of_nonblank {text : String} (hblank : isBlank text = false)
    (hlen : text.length ≤ 2000) : isText text = true := by
  rw [isBlank, List.all_eq_false] at hblank
  obtain ⟨c, hc, hspace⟩ := hblank
  rw [isText, Bool.and_eq_true, decide_eq_true_eq, List.any_eq_true]
  refine ⟨hlen, c, hc, ?_⟩
  cases hwhite : isWhiteSpace c with
  | false => rfl
  | true => exact absurd (isSpace_of_isWhiteSpace hwhite) hspace

theorem provenance_valid
    (hrun : ∀ run, proposal.author.isRole = true → proposal.modelRunId = some run → 0 < run) :
    (provenance proposal).validate = .ok () := by
  rw [Provenance.validate, raiseFirst_eq_ok]
  simp only [List.forall_mem_cons, List.not_mem_nil, false_implies, implies_true, and_true]
  unfold provenance
  cases hauthor : proposal.author with
  | system | learner => exact ⟨rfl, rfl⟩
  | role role =>
    refine ⟨?_, rfl⟩
    simp only [Option.any_eq_false, decide_eq_false_iff_not, not_le]
    intro run hsome
    simpa using hrun run (by rw [hauthor]; rfl) hsome

variable {kind : MemoryKind}

theorem retention_pos {delta : Int} (h : retention kind = some delta) : 0 < delta := by
  cases kind <;> simp only [retention, reduceCtorEq, Option.some.injEq] at h <;> subst h <;> decide

theorem mapM_addTime {lifetime : Option Int}
    (h : ∀ delta, lifetime = some delta → now + delta ≤ datetimeMax) :
    lifetime.mapM (addTime now) = .ok (lifetime.map fun delta => now + delta) := by
  cases lifetime with
  | none => rfl
  | some delta =>
    have hle := h delta rfl
    simp only [Option.mapM_some, addTime, if_neg (not_lt.mpr hle)]
    rfl

theorem Counted.write (h : Counted review) (hkind : outcome.storedKind = some kind)
    (hclaim : isText proposal.claim = true) (hevi : evidence ≠ [])
    (hvisible : outcome.visibleTo ≠ []) (hprov : (provenance proposal).validate = .ok ())
    (htime : ∀ delta, outcome.retention = some delta → 0 < delta ∧ now + delta ≤ datetimeMax)
    (happroval : kind = .hypothesis → approval ≠ .approved)
    (hep : kind = .episodic → outcome.retention = none) :
    ∃ revision next, review.write proposal outcome now approval evidence = .ok (revision, next) := by
  have hexps := mapM_addTime (fun delta hdelta => (htime delta hdelta).2)
  obtain ⟨expiresAt, hexpsAt⟩ : ∃ expiresAt : Option Instant,
      expiresAt = outcome.retention.map fun delta => now + delta := ⟨_, rfl⟩
  rw [← hexpsAt] at hexps
  have hcounters := h.counters
  have hval : (review.revisionOf proposal outcome kind now approval evidence expiresAt).validate =
      .ok () := by
    rw [validate_iff]
    simp only [MemoryReview.revisionOf]
    refine ⟨⟨by omega, by omega, by decide⟩, ⟨hclaim, ?_, by simp, by simp, by simp, hevi⟩,
      ⟨by simp, by simp, hvisible⟩, ⟨by simp, by simp, by simp⟩, ⟨by simp, ?_⟩, happroval, ?_⟩
    · split <;> decide
    · intro time hsome
      rw [hexpsAt, Option.map_eq_some_iff] at hsome
      obtain ⟨delta, hdelta, rfl⟩ := hsome
      exact Int.lt_add_of_pos_right now (htime delta hdelta).1
    · intro hkindEpisodic
      rw [hexpsAt, hep hkindEpisodic]
      rfl
  have happ : MemoryLedger.append review.ledger
      (review.revisionOf proposal outcome kind now approval evidence expiresAt) =
        .ok (review.ledger ++
          [review.revisionOf proposal outcome kind now approval evidence expiresAt]) := by
    apply append_of
    · intro old hold
      have hlt := h.revisionBound old hold
      exact Nat.ne_of_lt hlt
    · have hnone := h.history_next
      rw [MemoryLedger.appendChecks]
      simp only [MemoryReview.revisionOf, hnone, List.getLast?_nil]
      rfl
    · rfl
  refine ⟨review.revisionOf proposal outcome kind now approval evidence expiresAt,
    { review with
      ledger := review.ledger ++
        [review.revisionOf proposal outcome kind now approval evidence expiresAt]
      nextMemory := review.nextMemory + 1
      nextRevision := review.nextRevision + 1 }, ?_⟩
  simp only [MemoryReview.write, hkind, bind, Except.bind, hprov, hexps, hval, happ]
  rfl

theorem atomically_raised {α : Type} {att : Except MemoryFailure (α × MemoryReview)}
    (h : (review.atomically att).1.isOk = false) : (review.atomically att).2 = review := by
  cases att with
  | error failure => rfl
  | ok pair => cases h

theorem propose_raised (h : Sound review)
    (hcare : Careful patterns review (.propose proposal evidence now))
    (hraised : (review.propose patterns proposal evidence now).1.isOk = false) :
    (review.propose patterns proposal evidence now).2 = review := by
  unfold MemoryReview.propose at hraised ⊢
  dsimp only at hraised ⊢
  split at hraised
  · rename_i href
    rw [if_pos href]
  · cases hwr : MemoryReview.writtenApproval (proposal.decide patterns).decision with
    | none =>
      rw [hwr] at hraised
      cases hraised
    | some approval =>
      have hfits := hcare (by rw [hwr]; rfl)
      obtain ⟨kind, hkind, hvisible, hretention, hcases⟩ := decide_written hwr
      have hcnt : Counted { review with nextProposal := review.nextProposal + 1 } :=
        ⟨h.revisionBound, h.memoryBound, h.counters⟩
      have happroval : kind = .hypothesis → approval ≠ .approved := by
        rintro hhypothesis happr
        rcases hcases with ⟨-, hsame, hdec⟩ | ⟨hproposed, -⟩
        · exact hfits.kind hdec (hsame ▸ hhypothesis)
        · rw [hproposed] at happr
          cases happr
      have htime : ∀ delta, (proposal.decide patterns).retention = some delta →
          0 < delta ∧ now + delta ≤ datetimeMax := by
        intro delta hdelta
        exact ⟨retention_pos (hretention ▸ hdelta), hfits.time delta hdelta⟩
      have hep : kind = .episodic → (proposal.decide patterns).retention = none := by
        rintro rfl
        exact hretention
      obtain ⟨revision, next, hwrite⟩ := hcnt.write hkind
        (isText_of_nonblank proposal.claim_nonblank hfits.claim) hfits.evidence hvisible
        (provenance_valid hfits.run) htime happroval hep
      rw [hwr] at hraised
      simp only [hwrite] at hraised
      cases hraised

theorem step_raised (h : Sound review) (hcare : Careful patterns review call)
    (hstep : ReviewStep patterns review (call, false) next) : next = review := by
  have hret : (call.perform patterns review).1 = false := by
    rw [hstep]
  have hnext : (call.perform patterns review).2 = next := by
    rw [hstep]
  rw [← hnext]
  cases call with
  | propose proposal evidence now => exact propose_raised h hcare hret
  | approve | reject | promote | correct | expire => exact atomically_raised hret

/-! ## Whole runs -/

/-- `\w` on ASCII text. -/
def isWordChar (c : Char) : Bool := c.isAlphanum || c == '_'

def wordStarts : Bool → List Char → List (List Char)
  | _, [] => []
  | inWord, c :: rest =>
    if isWordChar c && !inWord then (c :: rest) :: wordStarts true rest
    else wordStarts (isWordChar c) rest

def asciiPatterns : Patterns where
  instruction claim :=
    let text := (claim.toList.dropWhile isSpace).map Char.toLower
    ["ignore", "disregard", "forget", "remember that you", "from now on", "you must",
      "always say", "never say", "system prompt", "as an ai", "override"].any fun phrase =>
        phrase.toList.isPrefixOf text &&
          !((text.drop phrase.length).head?.any isWordChar)
  sensitiveTopics claim :=
    (wordStarts false (claim.toList.map Char.toLower)).any fun text =>
      ["health", "medical", "diagnos", "pregnan", "religio", "politic", "ethnic", "sexual",
        "disabilit", "salary", "visa", "immigration", "mental", "therapy", "divorce"].any
          fun stem => stem.toList.isPrefixOf text

def sampleEvidence : EvidenceLink := ⟨.activity, 4, by decide⟩

def sampleFact : MemoryProposal where
  kind := .semantic
  claim := "prefers worked examples"
  origin := .system
  author := .system
  modelRunId := none
  evidenceKinds := [.activity]
  eventCount := 1
  sensitivity := .routine
  quotedSource := none
  coachModeCurrentAnswer := false
  aboutThePerson := false
  claim_nonblank := by decide
  run_named := by decide

section Steps

variable {patterns : Patterns} {review : MemoryReview} {accepted : Bool}

theorem step_propose {proposal : MemoryProposal} {evidence : List EvidenceLink} {now : Instant}
    (h : (review.propose patterns proposal evidence now).1.isOk = accepted) :
    ReviewStep patterns review (.propose proposal evidence now, accepted)
      (review.propose patterns proposal evidence now).2 :=
  Prod.ext h rfl

theorem step_promote {id : Nat} {evidence : List EvidenceLink} {now : Instant}
    (h : (review.promote id evidence now).1.isOk = accepted) :
    ReviewStep patterns review (.promote id evidence now, accepted)
      (review.promote id evidence now).2 :=
  Prod.ext h rfl

theorem step_correct {id : Nat} {claim : String} {now : Instant}
    (h : (review.correct id claim now).1.isOk = accepted) :
    ReviewStep patterns review (.correct id claim now, accepted) (review.correct id claim now).2 :=
  Prod.ext h rfl

end Steps

def factProposed : MemoryReview :=
  (emptyReview.propose asciiPatterns sampleFact [sampleEvidence] 10).2

theorem fact_proposed_step : ReviewStep asciiPatterns emptyReview
    (.propose sampleFact [sampleEvidence] 10, true) factProposed := by
  have hret : (emptyReview.propose asciiPatterns sampleFact [sampleEvidence] 10).1.isOk =
      true := by
    decide +kernel
  exact step_propose hret

theorem fact_fits : ProposalFits asciiPatterns sampleFact [sampleEvidence] 10 where
  claim := by decide
  evidence := by decide
  kind := by decide
  run := fun _ hrole => absurd hrole (by decide)
  time := by
    intro delta hdelta
    have hretention : (sampleFact.decide asciiPatterns).retention = some (days 180) := by
      decide +kernel
    rw [hretention, Option.some.injEq] at hdelta
    subst hdelta
    decide

end TamForge.Memory
