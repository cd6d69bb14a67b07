import TamForge.Memory.Proofs.Ledger

/-!
# What becomes of the learner's decisions

An approval writes the kind that was proposed with the lifetime that the policy
chose for what it would have stored; a promotion writes the claim that was
proposed, whatever became of the hypothesis since.
-/

namespace TamForge.Memory

open Models ProofSupport

variable {patterns : Patterns} {review next : MemoryReview} {revision : MemoryRevision}
  {call : ReviewCall} {returned : Bool} {record : ProposalRecord} {now : Instant}
  {evidence : List EvidenceLink}

/-! ## Records -/

/-- Every record keeps the policy's outcome, and one that is pending waits for the
learner by that outcome. -/
def Recorded (patterns : Patterns) (review : MemoryReview) : Prop :=
  ∀ record ∈ review.records, record.outcome = record.proposal.decide patterns ∧
    (record.status = .pendingApproval → record.outcome.decision = .requireUserApproval)

variable {updated : ProposalRecord}

theorem mem_setRecord {other : ProposalRecord} (h : other ∈ (review.setRecord updated).records) :
    other = updated ∨ other ∈ review.records := by
  simp only [MemoryReview.setRecord] at h
  split at h
  · obtain ⟨old, hold, heq⟩ := List.mem_map.mp h
    by_cases hsame : old.proposalId = updated.proposalId
    · rw [if_pos hsame] at heq
      exact Or.inl heq.symm
    · rw [if_neg hsame] at heq
      exact Or.inr (heq ▸ hold)
  · rcases List.mem_append.mp h with hold | hnew
    · exact Or.inr hold
    · exact Or.inl (List.mem_singleton.mp hnew)

theorem Recorded.set (h : Recorded patterns review) (hrecs : next.records = review.records)
    (hout : updated.outcome = updated.proposal.decide patterns)
    (hpend : updated.status = .pendingApproval → updated.outcome.decision = .requireUserApproval)
    : Recorded patterns (next.setRecord updated) := by
  intro other ho
  rcases mem_setRecord ho with rfl | hold
  · exact ⟨hout, hpend⟩
  · exact h other (hrecs ▸ hold)

variable {proposalId : Nat}

theorem record_mem (h : review.record? proposalId = some record) : record ∈ review.records :=
  List.mem_of_find?_eq_some h

variable {proposal : MemoryProposal}

theorem write_records {out : PolicyOutcome} {approval : Approval}
    (h : review.write proposal out now approval evidence = .ok (revision, next)) :
    next.records = review.records := by
  obtain ⟨kind, expiresAt, -, -, -, -, -, rfl⟩ := write_ok h
  rfl

theorem Recorded.propose (h : Recorded patterns review) (proposal : MemoryProposal)
    (evidence : List EvidenceLink) (now : Instant) :
    Recorded patterns (review.propose patterns proposal evidence now).2 := by
  unfold MemoryReview.propose
  dsimp only
  split
  · exact h
  · cases hwr : MemoryReview.writtenApproval (proposal.decide patterns).decision with
    | none =>
      dsimp only
      refine Recorded.set h rfl rfl ?_
      intro hpend
      dsimp only at hpend ⊢
      split at hpend
      · assumption
      · cases hpend
    | some approval =>
      dsimp only
      cases hwrite : MemoryReview.write { review with nextProposal := review.nextProposal + 1 }
          proposal (proposal.decide patterns) now approval evidence with
      | error failure => exact h
      | ok written =>
        obtain ⟨revision, counted⟩ := written
        have hrecs := write_records hwrite
        refine Recorded.set h hrecs rfl ?_
        intro hpend
        cases hpend

theorem Recorded.atomically {α : Type} (h : Recorded patterns review)
    {att : Except MemoryFailure (α × MemoryReview)}
    (hatt : ∀ res after, att = .ok (res, after) → Recorded patterns after) :
    Recorded patterns (review.atomically att).2 := by
  cases hcall : att with
  | error failure => exact h
  | ok pair => exact hatt pair.1 pair.2 hcall

theorem Recorded.step (h : Recorded patterns review)
    (hstep : ReviewStep patterns review (call, returned) next) : Recorded patterns next := by
  have hnext : (call.perform patterns review).2 = next := by
    rw [hstep]
  rw [← hnext]
  cases call with
  | propose proposal evidence now => exact h.propose proposal evidence now
  | approve proposalId reviewer evidence now =>
    refine h.atomically ?_
    intro updated after hcall
    obtain ⟨record, revision, written, hf, hwrite, hproposal, hout, hst, rfl⟩ :=
      approve_ok hcall
    refine h.set (write_records hwrite) ?_ ?_
    · rw [hout, hproposal]
      exact (h record (record_mem hf)).1
    · rw [hst]
      intro hpend
      cases hpend
  | reject proposalId reviewer now =>
    refine h.atomically ?_
    intro updated after hcall
    obtain ⟨record, hf, hproposal, hout, hst, rfl⟩ := reject_ok hcall
    refine h.set rfl ?_ ?_
    · rw [hout, hproposal]
      exact (h record (record_mem hf)).1
    · rw [hst]
      intro hpend
      cases hpend
  | promote proposalId evidence now =>
    refine h.atomically ?_
    intro updated after hcall
    obtain ⟨record, revision, written, hf, -, -, hwrite, hproposal, hout, hst, rfl⟩ :=
      promote_ok hcall
    refine h.set (write_records hwrite) ?_ ?_
    · rw [hout, hproposal]
      exact (h record (record_mem hf)).1
    · rw [hst]
      intro hpend
      cases hpend
  | correct revisionId claim now =>
    refine h.atomically ?_
    intro updated after hcall
    simp only [MemoryReview.correctCall, bind_ok_iff] at hcall
    obtain ⟨_, -, _, -, hpure⟩ := hcall
    cases hpure
    exact h
  | expire revisionId time now =>
    refine h.atomically ?_
    intro updated after hcall
    simp only [MemoryReview.expireCall, bind_ok_iff] at hcall
    obtain ⟨_, -, _, -, hpure⟩ := hcall
    cases hpure
    exact h

theorem decide_pending (h : (proposal.decide patterns).decision = .requireUserApproval) :
    (proposal.decide patterns).visibleTo ≠ [] ∧
      0 < (proposal.decide patterns).requiredEvidence ∧
      ∃ kind, (proposal.decide patterns).retention = retention kind := by
  have hruled : Ruled proposal (proposal.decide patterns) := decide_ruled proposal
  generalize proposal.decide patterns = outcome at h hruled ⊢
  cases hruled with
  | rejected reason => cases h
  | fact sensitive reason hroles =>
    cases sensitive with
    | true => exact ⟨by simp [factOutcome, learnerFacing], Nat.one_pos, proposal.kind, rfl⟩
    | false => cases h
  | hypothesis reason hroles hdec =>
    exact ⟨hroles, Nat.succ_pos 2, .hypothesis, rfl⟩

/-- The lifetime chosen does not expire an episode, the run behind the proposal is
a real one, and the memory ends before time does. -/
structure Approvable (record : ProposalRecord) (now : Instant) : Prop where
  episode : record.proposal.kind = .episodic → record.outcome.retention = none
  run : ∀ run, record.proposal.author.isRole = true → record.proposal.modelRunId = some run →
    0 < run
  time : ∀ delta, record.outcome.retention = some delta → now + delta ≤ datetimeMax

theorem run_pos_of_valid (h : (provenance proposal).validate = .ok ()) {run : Int}
    (hrole : proposal.author.isRole = true) (hrun : proposal.modelRunId = some run) : 0 < run := by
  rw [Provenance.validate, raiseFirst_eq_ok] at h
  have hpos := h _ (List.mem_cons_self ..)
  unfold provenance at hpos
  cases hauthor : proposal.author with
  | system | learner =>
    rw [hauthor] at hrole
    cases hrole
  | role role =>
    rw [hauthor] at hpos
    simpa [hrun] using hpos

theorem addTime_of_ok {lifetime : Option Int} {expiresAt : Option Instant}
    (h : lifetime.mapM (addTime now) = .ok expiresAt) {delta : Int}
    (hdelta : lifetime = some delta) :
    now + delta ≤ datetimeMax ∧ expiresAt = some (now + delta) := by
  subst hdelta
  simp only [Option.mapM_some, addTime] at h
  split at h
  · cases h
  · rename_i hle
    cases h
    exact ⟨not_lt.mp hle, rfl⟩

/-- A pending proposal with the evidence it needs can be approved exactly when it
is approvable. -/
theorem approve_iff (hcnt : Counted review) (hrecd : Recorded patterns review)
    (hrec : review.record? proposalId = some record)
    (hpend : record.status = .pendingApproval) (hclaim : isText record.proposal.claim = true)
    (reviewer : String) (hevi : record.outcome.requiredEvidence ≤ evidence.length) :
    (review.approve proposalId reviewer evidence now).1.isOk = true ↔ Approvable record now := by
  obtain ⟨hout, hwaits⟩ := hrecd record (record_mem hrec)
  have hdec := hwaits hpend
  rw [hout] at hdec
  obtain ⟨hvisible, hreqd, kind, hretention⟩ := decide_pending hdec
  rw [← hout] at hvisible hreqd hretention
  have hfilt : (review.record? proposalId).filter (·.status == .pendingApproval) =
      some record := by
    rw [hrec]
    simp [hpend]
  have hgrd : raiseFirst [(decide (evidence.length < record.outcome.requiredEvidence),
      MemoryFailure.review ("approval needs " ++ toString record.outcome.requiredEvidence ++
        " pieces of evidence, got " ++ toString evidence.length))] = .ok () := by
    rw [raiseFirst_eq_ok]
    intro check hcheck
    rw [List.mem_singleton.mp hcheck]
    exact decide_eq_false (by omega)
  have hcall : review.approveCall proposalId reviewer evidence now =
      (review.write record.proposal (MemoryReview.confirmed record) now .approved evidence >>=
        fun written => pure (
          { record with
            status := .approved
            revisionId := some written.1.revisionId
            decidedAt := now
            reviewedBy := some reviewer
            promotedToRevisionId := none },
          written.2.setRecord { record with
            status := .approved
            revisionId := some written.1.revisionId
            decidedAt := now
            reviewedBy := some reviewer
            promotedToRevisionId := none })) := by
    simp only [MemoryReview.approveCall, hfilt, bind, Except.bind, hgrd]
  have hkind : (MemoryReview.confirmed record).storedKind =
      some (if record.proposal.kind = .hypothesis then .semantic else record.proposal.kind) := by
    simp only [MemoryReview.confirmed]
    split <;> rfl
  constructor
  · intro hok
    cases hwrite : review.write record.proposal (MemoryReview.confirmed record) now .approved
        evidence with
    | error failure =>
      rw [MemoryReview.approve, hcall, hwrite] at hok
      cases hok
    | ok written =>
      obtain ⟨revision, after⟩ := written
      obtain ⟨stored, expiresAt, hsto, hexps, hrow, hval, hprov, -⟩ :=
        write_ok hwrite
      rw [hrow] at hprov hval
      refine ⟨?_, fun run hrole hrun => run_pos_of_valid hprov hrole hrun,
        fun delta hdelta => (addTime_of_ok hexps hdelta).1⟩
      intro hep
      rw [hkind, hep, if_neg (by decide), Option.some.injEq] at hsto
      have hnone := (validate_iff.mp hval).2.2.2.2.2.2 hsto.symm
      cases hlifetime : record.outcome.retention with
      | none => rfl
      | some delta =>
        have hsome := (addTime_of_ok hexps hlifetime).2
        rw [hsome] at hnone
        cases hnone
  · intro happrovable
    have hne : evidence ≠ [] := by
      rintro rfl
      rw [List.length_nil] at hevi
      omega
    have htime : ∀ delta, (MemoryReview.confirmed record).retention = some delta →
        0 < delta ∧ now + delta ≤ datetimeMax := fun delta hdelta =>
      ⟨retention_pos (hretention ▸ hdelta), happrovable.time delta hdelta⟩
    obtain ⟨revision, after, hwrite⟩ := hcnt.write hkind hclaim hne hvisible
      (provenance_valid happrovable.run) htime
      (by split <;> simp_all) (by
        intro hep
        split at hep
        · cases hep
        · exact happrovable.episode hep)
    rw [MemoryReview.approve, hcall, hwrite]
    rfl

/-! ## Promotions -/

def Overruled (review : MemoryReview) (record : ProposalRecord) (now : Instant) : Prop :=
  ∃ first ∈ review.ledger, record.revisionId = some first.revisionId ∧
    ∃ hypothesis, MemoryLedger.current review.ledger first.memoryId = some hypothesis ∧
      (hypothesis.claim ≠ record.proposal.claim ∨
        ∃ stop, hypothesis.validTo = some stop ∧ stop ≤ now)

def MakesVisible (before after : MemoryReview) (record : ProposalRecord) : Prop :=
  ∃ role time ceiling, ∃ revision ∈ MemoryLedger.visible after.ledger role time ceiling none,
    revision ∉ before.ledger ∧ revision.claim = record.proposal.claim ∧
      revision.approval = .approved ∧ revision.inForce time = true

theorem current_written (h : Counted review) (hmemo : revision.memoryId = review.nextMemory) :
    MemoryLedger.current (review.ledger ++ [revision]) revision.memoryId = some revision := by
  rw [MemoryLedger.current, history_append, if_pos rfl, hmemo, h.history_next, List.nil_append]
  rfl

theorem promote_visible (hcnt : Counted review)
    (hrec : review.record? proposalId = some record)
    (h : review.promoteCall proposalId evidence now = .ok (updated, next)) :
    MakesVisible review next record := by
  obtain ⟨found, revision, written, hf, -, -, hwrite, -, -, -, rfl⟩ := promote_ok h
  rw [hrec, Option.some.injEq] at hf
  subst hf
  obtain ⟨kind, expiresAt, -, hexps, hrow, hval, -, rfl⟩ := write_ok hwrite
  have hvalidated := validate_iff.mp hval
  have hvisible := hvalidated.2.2.1.2.2
  have hexpy := hvalidated.2.2.2.2.1.2
  obtain ⟨role, roles, hroles⟩ := List.exists_cons_of_ne_nil hvisible
  have hfrom : revision.validFrom = now := by
    rw [hrow]
    rfl
  have hto : revision.validTo = none := by
    rw [hrow]
    rfl
  have hforce : revision.inForce now = true := by
    simp only [MemoryRevision.inForce, hfrom, hto, le_refl, decide_true, Option.any_none,
      Bool.not_false, Bool.and_true, Bool.true_and, Bool.not_eq_true', Option.any_eq_false,
      decide_eq_false_iff_not, not_le]
    intro stop hstop
    have hlt := hexpy stop hstop
    rw [hfrom] at hlt
    simpa using hlt
  have happr : revision.approval = .approved := by
    rw [hrow]
    rfl
  refine ⟨role, now, .realInterview, revision, ?_, ?_, by rw [hrow]; rfl, happr, hforce⟩
  · rw [MemoryLedger.visible, List.mem_filter, List.mem_filterMap]
    refine ⟨⟨revision.memoryId, ?_, current_written hcnt (by rw [hrow]; rfl)⟩, ?_⟩
    · rw [List.mem_eraseDups]
      exact List.mem_map_of_mem (List.mem_append_right _ (List.mem_singleton.mpr rfl))
    · have hrank : revision.sensitivity.rank ≤ Sensitivity.rank .realInterview := by
        cases revision.sensitivity <;> decide
      simp [happr, hroles, hrank, hforce]
  · intro hold
    have hlt := hcnt.revisionBound revision hold
    rw [hrow] at hlt
    exact Nat.lt_irrefl _ hlt

def KeepsOverruled (step : Transition MemoryReview (ReviewCall × Bool)) : Prop :=
  ∀ proposalId evidence now record, step.label = (.promote proposalId evidence now, true) →
    step.before.record? proposalId = some record → Overruled step.before record now →
    ¬ MakesVisible step.before step.after record

def PromotesOverruled (step : Transition MemoryReview (ReviewCall × Bool)) : Prop :=
  ∃ proposalId evidence now record, step.label = (.promote proposalId evidence now, true) ∧
    step.before.record? proposalId = some record ∧ Overruled step.before record now

theorem promote_returned
    (h : ReviewStep patterns review (.promote proposalId evidence now, true) next) :
    ∃ updated, review.promoteCall proposalId evidence now = .ok (updated, next) := by
  have hret : (review.promote proposalId evidence now).1.isOk = true := congrArg Prod.fst h
  have hnext : (review.promote proposalId evidence now).2 = next := congrArg Prod.snd h
  unfold MemoryReview.promote at hret hnext
  cases hcall : review.promoteCall proposalId evidence now with
  | error failure =>
    rw [hcall] at hret
    cases hret
  | ok pair =>
    rw [hcall] at hnext
    exact ⟨pair.1, by rw [← hnext]; rfl⟩

theorem keepsOverruled_iff (hcnt : Counted review) {label : ReviewCall × Bool}
    (hstep : ReviewStep patterns review label next) :
    KeepsOverruled ⟨review, label, next⟩ ↔ ¬ PromotesOverruled ⟨review, label, next⟩ := by
  constructor
  · rintro hkeeps ⟨proposalId, evidence, now, record, hlab, hrec, hoverruled⟩
    change label = _ at hlab
    subst hlab
    obtain ⟨updated, hcall⟩ := promote_returned hstep
    exact hkeeps proposalId evidence now record rfl hrec hoverruled
      (promote_visible hcnt hrec hcall)
  · intro hnone proposalId evidence now record hlab hrec hoverruled
    exact absurd ⟨proposalId, evidence, now, record, hlab, hrec, hoverruled⟩ hnone

/-! ## Whole runs -/

section Runs

variable {trace : List (Transition MemoryReview (ReviewCall × Bool))} {final : MemoryReview}

theorem run_counted (hrun : Run (ReviewStep patterns) emptyReview trace final) :
    Counted final ∧ Recorded patterns final := by
  refine hrun.state_invariant (I := fun review => Counted review ∧ Recorded patterns review)
    ⟨sound_empty.toCounted, by simp [Recorded, emptyReview]⟩ ?_
  rintro review ⟨call, returned⟩ next ⟨hcnt, hrecd⟩ hstep
  exact ⟨hcnt.step (step_effect hstep), hrecd.step hstep⟩

end Runs

def sampleInference (kind : MemoryKind) (aboutThePerson : Bool) : MemoryProposal where
  kind := kind
  claim := "rushes the last question"
  origin := .agentInference
  author := .role .coach
  modelRunId := some 5
  evidenceKinds := [.conversation]
  eventCount := 1
  sensitivity := .routine
  quotedSource := none
  coachModeCurrentAnswer := false
  aboutThePerson := aboutThePerson
  claim_nonblank := by decide
  run_named := by intro _; rfl

def inferenceProposed (kind : MemoryKind) (aboutThePerson : Bool) : MemoryReview :=
  (emptyReview.propose asciiPatterns (sampleInference kind aboutThePerson) [sampleEvidence] 10).2

def pendingRecord (kind : MemoryKind) : ProposalRecord where
  proposalId := 1
  proposal := sampleInference kind true
  outcome := hypothesisOutcome .requireUserApproval .personalInference [.coach]
  status := .pendingApproval
  revisionId := none
  decidedAt := 10
  reviewedBy := none
  promotedToRevisionId := none

theorem inference_step (kind : MemoryKind) (aboutThePerson : Bool)
    (hret : (emptyReview.propose asciiPatterns (sampleInference kind aboutThePerson)
      [sampleEvidence] 10).1.isOk = true) :
    ReviewStep asciiPatterns emptyReview
      (.propose (sampleInference kind aboutThePerson) [sampleEvidence] 10, true)
      (inferenceProposed kind aboutThePerson) :=
  step_propose hret

def hypothesisCorrected : MemoryReview :=
  ((inferenceProposed .semantic false).correct 1 "takes their time" 20).2

def hypothesisRecord : ProposalRecord where
  proposalId := 1
  proposal := sampleInference .semantic false
  outcome := hypothesisOutcome .storeHypothesis .singleEventNotATrait learnerFacing
  status := .written
  revisionId := some 1
  decidedAt := 10
  reviewedBy := none
  promotedToRevisionId := none

end TamForge.Memory
