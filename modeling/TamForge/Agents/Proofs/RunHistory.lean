import TamForge.Agents.Proofs.RunLedger

/-!
# Histories of the ledger

What every transition of a run satisfies, how the accepted events of a history
are found in the table again, and how its refusals are found in the audit trail.
-/

namespace TamForge.Agents

open Models ProofSupport
open Recordings (hexdigest)

/-! ## One transition -/

structure Grows (before after : Tables) : Prop where
  runs : before.runs.rows <+: after.runs.rows
  contexts : before.contexts.rows <+: after.contexts.rows
  events : before.events.rows <+: after.events.rows
  tools : before.tools.rows <+: after.tools.rows
  audits : before.audits <+: after.audits

theorem Grows.refl (tables : Tables) : Grows tables tables where
  runs := List.prefix_rfl
  contexts := List.prefix_rfl
  events := List.prefix_rfl
  tools := List.prefix_rfl
  audits := List.prefix_rfl

theorem Grows.audit (tables : Tables) (row : AuditEvent) :
    Grows tables { tables with audits := tables.audits ++ [row] } where
  runs := List.prefix_rfl
  contexts := List.prefix_rfl
  events := List.prefix_rfl
  tools := List.prefix_rfl
  audits := List.prefix_append _ _

theorem Grows.insertRun (tables : Tables) (request : RunRequest) (original : OriginalText)
    (items : List ContextPayload) : Grows tables (Agents.insertRun tables request original items).2 where
  runs := List.prefix_append _ _
  contexts := ⟨_, (Serial.insertAll_rows _ _).symm⟩
  events := List.prefix_rfl
  tools := List.prefix_rfl
  audits := List.prefix_append _ _

variable {world : Surroundings} {tables after : Tables} {request : RunRequest} {run : ModelRun}

theorem Grows.register (h : Agents.register world tables request = .ok (run, after)) :
    Grows tables after := by
  obtain ⟨original, items, -, ⟨-, -, rfl⟩ | ⟨-, hins⟩⟩ := register_ok h
  · exact Grows.audit tables _
  · obtain rfl : after = (Agents.insertRun tables request original items).2 :=
      congrArg Prod.snd hins
    exact Grows.insertRun tables request original items

variable {s t : LedgerState} {label : LedgerStep}

theorem Grows.step (h : LedgerState.Step s label t) : Grows s.tables t.tables := by
  cases h with
  | registered hcall => exact Grows.register hcall
  | registerRefused => exact Grows.refl _
  | refusalAudited => exact Grows.audit _ _
  | eventAppended hcall =>
    obtain ⟨-, -, -, -, -, -, rfl⟩ := appendEvent_ok hcall
    exact { Grows.refl s.tables with events := List.prefix_append _ _ }
  | eventRefused => exact Grows.refl _
  | toolAppended hcall =>
    obtain ⟨-, -, -, -, rfl⟩ := appendTool_ok hcall
    exact { Grows.refl s.tables with tools := List.prefix_append _ _ }
  | toolRefused => exact Grows.refl _
  | elsewhere => exact Grows.refl _

def LedgerStep.raised : LedgerStep → Bool
  | .register _ (.error _) => true
  | .appendEvent _ (.error _) => true
  | .appendTool _ (.error _) => true
  | _ => false

/-- What a submission of a key that has a run does, once it passes the gates
before the key. -/
structure Resubmission (before : LedgerState) (request : RunRequest)
    (result : Except ProvenanceError ModelRun) (after : LedgerState) : Prop where
  replayed : ∀ original items run, prepare before.world request = .ok (original, items) →
    run ∈ before.tables.runs.rows → run.key = (request.ownerId, request.invocationKey) →
    run.payload.sameContent (runHeader request original) = true →
    result = .ok run ∧ after = { before with
      tables := { before.tables with
        audits := before.tables.audits ++ [auditRow request .none true] } }
  conflicting : ∀ original items run, prepare before.world request = .ok (original, items) →
    run ∈ before.tables.runs.rows → run.key = (request.ownerId, request.invocationKey) →
    run.payload.sameContent (runHeader request original) = false →
    result = .error .immutableVersionConflict

structure LedgerLaw (t : Transition LedgerState LedgerStep) : Prop where
  grows : Grows t.before.tables t.after.tables
  refused : t.label.raised = true → t.after.tables = t.before.tables
  understated : ∀ request result, t.label = .register request result →
    Agents.understated t.before.world request = true → result = .error .invalidProvenance
  resubmission : ∀ request result, t.label = .register request result →
    Resubmission t.before request result t.after

theorem resubmission_ok (h : Sound s.tables)
    (hcall : register s.world s.tables request = .ok (run, tables)) :
    Resubmission s request (.ok run) { s with tables := tables } := by
  constructor
  · intro original items other hprep ho hkey hsame
    have hold := existing_of_mem h.keys ho hkey
    rw [register_existing hprep hold (h.hashes other ho), if_pos hsame] at hcall
    obtain ⟨rfl, rfl⟩ := Prod.mk.inj (Except.ok.inj hcall)
    exact ⟨rfl, rfl⟩
  · intro original items other hprep ho hkey hdiffers
    have hold := existing_of_mem h.keys ho hkey
    rw [register_existing hprep hold (h.hashes other ho), hdiffers] at hcall
    cases hcall

theorem resubmission_error {refusal : Refusal} (h : Sound s.tables)
    (hcall : register s.world s.tables request = .error refusal) :
    Resubmission s request (.error refusal.error) t := by
  constructor
  · intro original items other hprep ho hkey hsame
    have hold := existing_of_mem h.keys ho hkey
    rw [register_existing hprep hold (h.hashes other ho), if_pos hsame] at hcall
    cases hcall
  · intro original items other hprep ho hkey hdiffers
    have hold := existing_of_mem h.keys ho hkey
    rw [register_existing hprep hold (h.hashes other ho), hdiffers] at hcall
    rw [← Except.error.inj hcall]

theorem LedgerLaw.step (h : Sound s.tables) (hstep : LedgerState.Step s label t) :
    LedgerLaw ⟨s, label, t⟩ := by
  refine ⟨Grows.step hstep, ?_, ?_, ?_⟩
  · intro hraised
    cases hstep with
    | registered => cases hraised
    | registerRefused => rfl
    | refusalAudited => cases hraised
    | eventAppended => cases hraised
    | eventRefused => rfl
    | toolAppended => cases hraised
    | toolRefused => rfl
    | elsewhere => cases hraised
  · rintro request res rfl hless
    cases hstep with
    | registered hcall =>
      have hfair := (register_accepted h.keys hcall).1
      exact absurd hless (by simp [hfair])
    | registerRefused hcall =>
      rw [(register_error h.keys h.hashes hcall).2 hless]
  · rintro request res rfl
    cases hstep with
    | registered hcall => exact resubmission_ok h hcall
    | registerRefused hcall => exact resubmission_error h hcall

/-! ## Accepted events -/

/-- What a call of `append_event` is made with. -/
structure Expectation where
  ownerId : Nat
  runHash : Digest
  sequence : Nat
  state : RunState
deriving DecidableEq

def EventCall.expectation (call : EventCall) : Expectation where
  ownerId := call.ownerId
  runHash := call.runHash
  sequence := call.expectedSequence
  state := call.expectedState

def accepted (expectation : Expectation) (t : Transition LedgerState LedgerStep) : Bool :=
  match t.label with
  | .appendEvent call (.ok _) => decide (call.expectation = expectation)
  | _ => false

def writtenBy (expectation : Expectation) (row : ModelRunEvent) : Bool :=
  decide (row.payload.ownerId = expectation.ownerId) &&
    decide (row.payload.runHash = expectation.runHash) &&
    decide (row.sequence = expectation.sequence + 1) &&
    decide (row.payload.expectedState = expectation.state)

theorem writtenBy_newEvent (expectation : Expectation) (call : EventCall) (runId id : Nat) :
    writtenBy expectation (newEvent call runId call.expectedSequence id) =
      decide (call.expectation = expectation) := by
  rw [Bool.eq_iff_iff]
  simp only [writtenBy, Bool.and_eq_true, decide_eq_true_iff]
  constructor
  · rintro ⟨⟨⟨hown, hhash⟩, hseq⟩, hst⟩
    cases expectation
    obtain rfl := hown
    obtain rfl := hhash
    obtain rfl := hst
    obtain rfl := Nat.succ.inj hseq
    rfl
  · rintro rfl
    exact ⟨⟨⟨rfl, rfl⟩, rfl⟩, rfl⟩

def Locked (tables : Tables) (row : ModelRunEvent) : Prop :=
  ∃ run, tables.runs.rows.find? (fun other => other.ownerId = row.payload.ownerId &&
    other.contentHash = row.payload.runHash) = some run ∧ run.id = row.runId

theorem Locked.mono {before : Tables} {row : ModelRunEvent} (h : Locked before row)
    (hgrows : Grows before after) : Locked after row := by
  obtain ⟨run, hfind, hid⟩ := h
  exact ⟨run, hgrows.runs.find?_eq_some hfind, hid⟩

/-- One expectation has at most one row: its rows are under one run, where a
number is used once. -/
theorem countP_writtenBy (hsound : Sound tables)
    (hlock : ∀ row ∈ tables.events.rows, Locked tables row) (expectation : Expectation) :
    tables.events.rows.countP (writtenBy expectation) ≤ 1 := by
  by_cases hsome : ∃ row ∈ tables.events.rows, writtenBy expectation row = true
  · obtain ⟨row, hrow, hwr⟩ := hsome
    obtain ⟨run, hfind, hid⟩ := hlock row hrow
    have hrun := hsound.records run (List.mem_of_find?_eq_some hfind)
    have hsub : ∀ other ∈ tables.events.rows, writtenBy expectation other = true →
        (decide (other.sequence = expectation.sequence + 1) &&
          decide (other.runId = run.id)) = true := by
      intro other ho hotherWr
      simp only [writtenBy, Bool.and_eq_true, decide_eq_true_eq] at hwr hotherWr
      obtain ⟨found, hotherFind, hotherId⟩ := hlock other ho
      have hsame : found = run := by
        rw [hotherWr.1.1.1, hotherWr.1.1.2, ← hwr.1.1.1, ← hwr.1.1.2,
          hfind] at hotherFind
        exact (Option.some.inj hotherFind).symm
      simp [hotherWr.1.2, ← hotherId, hsame]
    calc tables.events.rows.countP (writtenBy expectation)
        ≤ tables.events.rows.countP fun other =>
            decide (other.sequence = expectation.sequence + 1) && decide (other.runId = run.id) :=
          List.countP_mono_left hsub
      _ = (tables.eventsOf run.id).countP fun other =>
            decide (other.sequence = expectation.sequence + 1) := by
          rw [Tables.eventsOf, List.countP_filter]
      _ ≤ 1 := hrun.numbered.countP_le_one _
  · rw [Nat.le_one_iff_eq_zero_or_eq_one]
    refine Or.inl (List.countP_eq_zero.mpr fun row hrow hwr => hsome ⟨row, hrow, hwr⟩)

/-- The audit row that a submission calls for when it is understated or reuses a
key. -/
def refusalRow (t : Transition LedgerState LedgerStep) : Option AuditEvent :=
  match t.label with
  | .register request _ =>
    if understated t.before.world request then some (auditRow request .unauthorized false)
    else if reusedKey t.before.world t.before.tables request then
      some (auditRow request .conflict false)
    else none
  | _ => none

def refusalTrail (s : LedgerState) : List AuditEvent :=
  (s.tables.audits.filter fun row => row.action = .refused) ++
    s.refused.map fun entry => auditRow entry.1 entry.2 false

theorem auditRow_refused (request : RunRequest) {reason : AuditReasonCode} (h : reason ≠ .none)
    (repl : Bool) : (auditRow request reason repl).action = .refused := by
  cases reason with
  | none => exact absurd rfl h
  | unauthorized => rfl
  | conflict => rfl

theorem register_audits (h : register world tables request = .ok (run, after)) :
    ∃ repl, after.audits = tables.audits ++ [auditRow request .none repl] := by
  obtain ⟨original, items, -, ⟨-, -, rfl⟩ | ⟨-, hins⟩⟩ := register_ok h
  · exact ⟨true, rfl⟩
  · obtain rfl : after = (Agents.insertRun tables request original items).2 :=
      congrArg Prod.snd hins
    exact ⟨false, rfl⟩

theorem refusalTrail_step (h : Sound s.tables) (hreasons : ∀ entry ∈ s.refused, entry.2 ≠ .none)
    (hstep : LedgerState.Step s label t) :
    (refusalTrail t).Perm (refusalTrail s ++ (refusalRow ⟨s, label, t⟩).toList) ∧
      ∀ entry ∈ t.refused, entry.2 ≠ .none := by
  cases hstep with
  | @registered request run tables hcall =>
    obtain ⟨repl, haudits⟩ := register_audits hcall
    obtain ⟨hfair, hfresh⟩ := register_accepted h.keys hcall
    refine ⟨?_, hreasons⟩
    simp [refusalTrail, refusalRow, haudits, hfair, hfresh, auditRow]
  | @registerRefused request refusal hcall =>
    have haudit := (register_error h.keys h.hashes hcall).1
    simp only [refusalTrail, refusalRow]
    rw [List.map_append, ← List.append_assoc]
    cases hless : understated s.world request with
    | true =>
      simp only [hless, if_true] at haudit
      rw [haudit]
      refine ⟨List.Perm.refl _, ?_⟩
      intro entry hent
      rcases List.mem_append.mp hent with hold | hnew
      · exact hreasons entry hold
      · rw [List.mem_singleton.mp hnew]
        simp
    | false =>
      cases hreused : reusedKey s.world s.tables request with
      | true =>
        simp only [hless, hreused, Bool.false_eq_true, if_false, if_true] at haudit
        rw [haudit]
        refine ⟨List.Perm.refl _, ?_⟩
        intro entry hent
        rcases List.mem_append.mp hent with hold | hnew
        · exact hreasons entry hold
        · rw [List.mem_singleton.mp hnew]
          simp
      | false =>
        simp only [hless, hreused, Bool.false_eq_true, if_false] at haudit
        rw [haudit]
        simpa using hreasons
  | @refusalAudited before after request reason href =>
    have hwhy : reason ≠ .none := hreasons (request, reason) (by simp [href])
    refine ⟨?_, fun entry hent => hreasons entry ?_⟩
    · simp only [refusalTrail, refusalRow, Option.toList_none, List.append_nil, href,
        List.filter_append, List.map_append, List.map_cons,
        List.filter_singleton, auditRow_refused request hwhy, decide_true, cond_true]
      rw [List.append_assoc, List.singleton_append]
      exact List.Perm.append_left _ List.perm_middle.symm
    · rw [href]
      rcases List.mem_append.mp hent with hold | hnew
      · exact List.mem_append_left _ hold
      · exact List.mem_append_right _ (List.mem_cons_of_mem _ hnew)
  | eventAppended hcall =>
    obtain ⟨-, -, -, -, -, -, rfl⟩ := appendEvent_ok hcall
    exact ⟨by simp [refusalTrail, refusalRow], hreasons⟩
  | eventRefused => exact ⟨by simp [refusalRow], hreasons⟩
  | toolAppended hcall =>
    obtain ⟨-, -, -, -, rfl⟩ := appendTool_ok hcall
    exact ⟨by simp [refusalTrail, refusalRow], hreasons⟩
  | toolRefused => exact ⟨by simp [refusalRow], hreasons⟩
  | elsewhere => exact ⟨by simp [refusalTrail, refusalRow], hreasons⟩

structure History (trace : List (Transition LedgerState LedgerStep)) (s : LedgerState) : Prop where
  sound : Sound s.tables
  laws : ∀ t ∈ trace, LedgerLaw t
  locked : ∀ row ∈ s.tables.events.rows, Locked s.tables row
  accepted : ∀ expectation, trace.countP (Agents.accepted expectation) =
    s.tables.events.rows.countP (writtenBy expectation)
  refusals : (refusalTrail s).Perm (trace.filterMap refusalRow)
  reasons : ∀ entry ∈ s.refused, entry.2 ≠ .none

/-- What a transition does to the events: an accepted call adds its row, nothing
else adds any. -/
theorem events_step (hstep : LedgerState.Step s label t)
    (hlocked : ∀ row ∈ s.tables.events.rows, Locked s.tables row) :
    (∀ row ∈ t.tables.events.rows, Locked t.tables row) ∧
      ∀ expectation, t.tables.events.rows.countP (writtenBy expectation) =
        s.tables.events.rows.countP (writtenBy expectation) +
          [(⟨s, label, t⟩ : Transition LedgerState LedgerStep)].countP
            (accepted expectation) := by
  have hgrows := Grows.step hstep
  have hkept : t.tables.events.rows = s.tables.events.rows →
      ∀ row ∈ t.tables.events.rows, Locked t.tables row :=
    fun hsame row hrow => (hlocked row (hsame ▸ hrow)).mono hgrows
  cases hstep with
  | registered hcall =>
    obtain ⟨original, items, -, ⟨-, -, rfl⟩ | ⟨-, hins⟩⟩ := register_ok hcall
    · exact ⟨hkept rfl, fun expectation => rfl⟩
    · obtain ⟨rfl, rfl⟩ := Prod.mk.inj hins
      exact ⟨hkept rfl, fun expectation => rfl⟩
  | registerRefused => exact ⟨hkept rfl, fun expectation => rfl⟩
  | refusalAudited => exact ⟨hkept rfl, fun expectation => rfl⟩
  | @eventAppended call row tables hcall =>
    obtain ⟨run, hlock, -, -, -, hrow, rfl⟩ := appendEvent_ok hcall
    constructor
    · intro other ho
      rcases List.mem_append.mp ho with hold | hnew
      · exact (hlocked other hold).mono hgrows
      · obtain rfl := List.mem_singleton.mp hnew
        refine ⟨run, ?_, by rw [hrow]; rfl⟩
        rw [hrow]
        exact (lockedRun_ok hlock).2
    · intro expectation
      rw [List.countP_append, List.countP_singleton, List.countP_singleton, hrow,
        writtenBy_newEvent]
      rfl
  | eventRefused => exact ⟨hkept rfl, fun expectation => rfl⟩
  | toolAppended hcall =>
    obtain ⟨-, -, -, -, rfl⟩ := appendTool_ok hcall
    exact ⟨hkept rfl, fun expectation => rfl⟩
  | toolRefused => exact ⟨hkept rfl, fun expectation => rfl⟩
  | elsewhere => exact ⟨hkept rfl, fun expectation => rfl⟩

variable {trace : List (Transition LedgerState LedgerStep)}

theorem History.step (h : History trace s) (hstep : LedgerState.Step s label t) :
    History (trace ++ [⟨s, label, t⟩]) t := by
  obtain ⟨hlock, hcnt⟩ := events_step hstep h.locked
  obtain ⟨htrail, hreasons⟩ := refusalTrail_step h.sound h.reasons hstep
  refine ⟨h.sound.step hstep, ?_, hlock, ?_, ?_, hreasons⟩
  · intro u hu
    rcases List.mem_append.mp hu with hold | hnew
    · exact h.laws u hold
    · rw [List.mem_singleton.mp hnew]
      exact LedgerLaw.step h.sound hstep
  · intro expectation
    rw [List.countP_append, h.accepted, hcnt]
  · rw [List.filterMap_append]
    refine htrail.trans (h.refusals.append (List.Perm.of_eq ?_))
    cases hrow : refusalRow ⟨s, label, t⟩ <;> simp [hrow]

theorem History.of_run {final : LedgerState}
    (hrun : Run LedgerState.Step (.initial world) trace final) : History trace final := by
  refine hrun.invariant ?_ fun _ _ _ _ h hstep => h.step hstep
  exact ⟨sound_empty, by simp, by simp [LedgerState.initial, Tables.empty, Serial.empty],
    fun _ => rfl, List.Perm.refl _, by simp [LedgerState.initial]⟩

/-- The ledger after any interleaving of submissions, events, tool audits and
audits of refusals.  A submission that passes the gates before its key either
replays the run of the key or is in conflict with it. -/
theorem ledger_append_only {world : Surroundings}
    {trace : List (Transition LedgerState LedgerStep)} {final : LedgerState}
    (hrun : Run LedgerState.Step (.initial world) trace final) :
    ((final.tables.runs.rows.map ModelRun.key).Nodup ∧
      ∀ run ∈ final.tables.runs.rows, RunRecord final.tables run ∧
        ∀ left event right,
          ((final.tables.eventsOf run.id).map fun row => row.payload.event) =
            left ++ event :: right →
          event.state ∈ [RunState.succeeded, .failed, .cancelled] → right = []) ∧
      (∀ expectation, trace.countP (accepted expectation) ≤ 1) ∧
      (∀ t ∈ trace, LedgerLaw t) ∧
      (refusalTrail final).Perm (trace.filterMap refusalRow) := by
  have h := History.of_run hrun
  refine ⟨⟨h.sound.keys, fun run hmem => ⟨h.sound.records run hmem, ?_⟩⟩, ?_, h.laws, h.refusals⟩
  · intro left event right hevents hend
    have hpath := (h.sound.records run hmem).path
    rw [hevents] at hpath
    apply hpath.final
    cases hstate : event.state with
    | registered => simp [hstate] at hend
    | running => simp [hstate] at hend
    | succeeded => rfl
    | failed => rfl
    | cancelled => rfl
  · intro expectation
    rw [h.accepted]
    exact countP_writtenBy h.sound h.locked expectation

/-! ## A classification that changes between two submissions -/

def sampleHash : Digest :=
  0xaaaaaaaaaaaaaaaaaaaaaaaaaaaaaaaaaaaaaaaaaaaaaaaaaaaaaaaaaaaaaaaa#256

def samplePin : PinnedVersion where
  id := 1
  contentHash := "aaaaaaaaaaaaaaaaaaaaaaaaaaaaaaaaaaaaaaaaaaaaaaaaaaaaaaaaaaaaaaaa"

def sampleText : OriginalText where
  text := "\x7b\"contract_version\":1,\"output\":\x7b\"kind\":\"writing\",\"draft_markdown\":\"abc\"\x7d\x7d"
  document := some (.object [
    ("contract_version", .number "1"),
    ("output", .object [("kind", .string "writing"), ("draft_markdown", .string "abc")])])

/-- A real interview, whose text goes out redacted and released only. -/
def sampleWorld : Surroundings where
  owners := [1]
  activities := [(1, 1)]
  attempts := [⟨1, 1, 1, .realInterview, sampleHash, some sampleText⟩]
  promptVersions := [⟨1, 1, sampleHash⟩]
  outputSchemaVersions := [⟨1, 1, sampleHash⟩]
  rubricVersionHashes := [⟨1, 1, sampleHash⟩]
  backgroundJobs := []

def sampleRequest : RunRequest where
  ownerId := 1
  invocationKey := "invocation-1"
  activityId := 1
  attempt := samplePin
  prompt := samplePin
  schemaVersion := samplePin
  rubricBinding := samplePin
  requestedModel := "model"
  sdkVersion := none
  cliVersion := none
  jobId := none
  predecessor := none
  context := [⟨0, .primaryEvidence,
    ⟨1, samplePin.contentHash, "/output/draft_markdown", 0, 2⟩,
    "fb8e20fc2e4c3f248c60c39bd652f3c1347298bb977b8b4d5903b85055620603"⟩]
  classification := ⟨.redactionRequired, .approved, .explicitRelease⟩

/-- The same submission declared releasable. -/
def sampleUnderstated : RunRequest :=
  { sampleRequest with classification := ⟨.releasable, .notRequired, .learnerSubmission⟩ }

def sampleItems : List ContextPayload :=
  sampleRequest.context.map (contextPayload sampleRequest sampleText)

theorem prepare_eq {attempt : Attempt} {original : OriginalText} (hvalid : request.valid = true)
    (howner : lockOwner world request.ownerId = .ok ())
    (hattempt : committedAttempt world request = .ok (attempt, original))
    (hscope : ¬ understates request.classification (deriveSubmissionScope attempt.attemptKind))
    (hresolved : ∀ item ∈ request.context,
      resolveAttemptText original item.reference = .ok item.preparedInputHash) :
    prepare world request =
      .ok (original, request.context.map (contextPayload request original)) := by
  have hitems : request.context.mapM (resolveContext request original) =
      .ok (request.context.map (contextPayload request original)) := by
    refine mapM_ok_iff.mpr (List.forall₂_map_right_iff.mpr (List.forall₂_same.mpr ?_))
    intro item hitem
    rw [resolveContext, hresolved item hitem]
    exact if_neg (by simp)
  simp [prepare, hvalid, howner, hattempt, silent, Except.mapError, bind, Except.bind, hscope,
    hitems]

theorem sample_accepted : sampleRequest.valid = true ∧
    prepare sampleWorld sampleRequest = .ok (sampleText, sampleItems) ∧
    (runAccepted sampleWorld Tables.empty (runHeader sampleRequest sampleText) &&
      sampleItems.all (contextAccepted sampleText)) = true := by
  have hcommitment : isHash samplePin.contentHash = true := by
    rw [show samplePin.contentHash = .ofList (.replicate 64 'a') from rfl, isHash,
      String.toList_ofList]
    decide
  have hpin : samplePin.valid = true := by
    rw [PinnedVersion.valid, hcommitment]
    rfl
  have hdigest : sha256 "ab".toUTF8.toList =
      0xfb8e20fc2e4c3f248c60c39bd652f3c1347298bb977b8b4d5903b85055620603#256 := by decide +kernel
  have hinput : "fb8e20fc2e4c3f248c60c39bd652f3c1347298bb977b8b4d5903b85055620603" =
      textHash "ab" := by
    rw [textHash, hdigest, hexdigest]
    rfl
  have hhash : isHash (textHash "ab") = true := by
    rw [textHash, hdigest, isHash, hexdigest, String.toList_ofList]
    decide
  have hresolved : resolveAttemptText sampleText
      ⟨1, samplePin.contentHash, "/output/draft_markdown", 0, 2⟩ = .ok (textHash "ab") := by
    rw [resolveAttemptText, show selected sampleText "/output/draft_markdown" = some "abc" from rfl]
    rfl
  have hattempt : committedAttempt sampleWorld sampleRequest =
      .ok (⟨1, 1, 1, .realInterview, sampleHash, some sampleText⟩, sampleText) := rfl
  have hitems : sampleRequest.context.all ContextInput.valid = true := by
    simp [sampleRequest, ContextInput.valid, AttemptTextReference.valid, hcommitment, hinput,
      hhash]
    decide
  have hvalid : sampleRequest.valid = true := by
    simp only [RunRequest.valid, Bool.and_eq_true, and_assoc]
    exact ⟨rfl, by decide, rfl, hpin, hpin, hpin, hpin, by decide, rfl, rfl, rfl,
      rfl, rfl, rfl, hitems, rfl, by decide⟩
  exact ⟨hvalid, prepare_eq hvalid rfl hattempt (by decide)
    (List.forall_mem_singleton.mpr (hresolved.trans (congrArg _ hinput.symm))), by decide⟩

theorem valid_reclassified {classification : SubmissionClassification} (h : request.valid = true)
    (hpermitted : classification.permitted = true) :
    RunRequest.valid { request with classification := classification } = true := by
  simp only [RunRequest.valid, Bool.and_eq_true] at h ⊢
  obtain ⟨⟨hos, -⟩, hord⟩ := h
  exact ⟨⟨hos, hpermitted⟩, hord⟩

theorem valid_understated : sampleUnderstated.valid = true := by
  apply valid_reclassified sample_accepted.1
  decide

theorem register_sample : register sampleWorld Tables.empty sampleRequest =
    .ok (insertRun Tables.empty sampleRequest sampleText sampleItems) := by
  rw [register_eq sample_accepted.2.1]
  exact if_pos sample_accepted.2.2

theorem register_understated (tables : Tables) : register sampleWorld tables sampleUnderstated =
    .error ⟨.invalidProvenance, some .unauthorized⟩ := by
  have hprep : prepare sampleWorld sampleUnderstated =
      .error ⟨.invalidProvenance, some .unauthorized⟩ := by
    rw [prepare, if_pos valid_understated]
    rfl
  rw [register, hprep]
  rfl

/-- The accepted submission, then the understated one and its audit row. -/
theorem run_sample : ∃ trace final, trace.length = 3 ∧
    Run LedgerState.Step (.initial sampleWorld) trace final ∧ final.world = sampleWorld ∧
      final.refused = [] ∧
      final.tables.runs.rows = [newRun sampleRequest sampleText 1] := by
  have hfst := LedgerState.Step.registered (s := .initial sampleWorld) register_sample
  have hsec := LedgerState.Step.registerRefused (s := ⟨sampleWorld,
    (insertRun Tables.empty sampleRequest sampleText sampleItems).2, []⟩)
    (register_understated _)
  have hthird := LedgerState.Step.refusalAudited (s := ⟨sampleWorld,
    (insertRun Tables.empty sampleRequest sampleText sampleItems).2,
    [(sampleUnderstated, .unauthorized)]⟩) (rfl : _ = [] ++ _ :: [])
  exact ⟨_, _, rfl, ((Run.refl.snoc hfst).snoc hsec).snoc hthird, rfl, rfl, rfl⟩

/-- The same header is registered, the second submission satisfies its contract
and passes every gate but the classification, and is refused. -/
theorem understated_resubmission_refused : ∃ trace final, ∃ run : ModelRun,
    Run LedgerState.Step (.initial sampleWorld) trace final ∧
      run ∈ final.tables.runs.rows ∧
      run.key = (sampleUnderstated.ownerId, sampleUnderstated.invocationKey) ∧
      run.payload.sameContent (runHeader sampleUnderstated sampleText) = true ∧
      sampleUnderstated.valid = true ∧
      register final.world final.tables sampleUnderstated =
        .error ⟨.invalidProvenance, some .unauthorized⟩ := by
  obtain ⟨trace, final, -, hrun, hworld, -, hruns⟩ := run_sample
  refine ⟨trace, final, newRun sampleRequest sampleText 1, hrun, by simp [hruns], rfl, ?_,
    valid_understated, ?_⟩
  · unfold RunPayload.sameContent
    exact beq_self_eq_true _
  · rw [hworld]
    exact register_understated _

theorem ledger_append_only_sample :
    ∃ (trace : List (Transition LedgerState LedgerStep)) (final : LedgerState), trace.length = 3 ∧
      (∀ run ∈ final.tables.runs.rows, RunRecord final.tables run) ∧
      (final.tables.audits.filter fun row => row.action = .refused).Perm
        (trace.filterMap refusalRow) := by
  obtain ⟨trace, final, hlength, hrun, -, hrefused, -⟩ := run_sample
  obtain ⟨⟨-, hrecords⟩, -, -, htrail⟩ := ledger_append_only hrun
  refine ⟨trace, final, hlength, fun run hmem => (hrecords run hmem).1, ?_⟩
  simpa [refusalTrail, hrefused] using htrail

end TamForge.Agents
