import TamForge.Reviews.Proofs.Processing

/-!
# The review and the ledger

The evidence of a review is committed before the review is.  A call that finds
the receipt of an earlier one rebuilds its command from a new outcome and a
later clock, so the ledger refuses it and the review says that nothing was
recorded.  When every such command is rebuilt as it was, and no call records
behind the back of another, the review says exactly what the ledger holds.
-/

namespace TamForge.Reviews

open Agents Evidence Jobs Learning Models
open Notifications ProofSupport

variable {w w' : ProcessWorld} {now reading : Instant} {db : Db} {ledger ledger' : Ledger}
  {ownerId activityId attemptId i : Nat} {begun : Begun} {outcome : ReviewOutcome}
  {reply : StorageReply} {configured : Bool}

/-- The evidence is in the ledger, no review is stored, and the call is about
to note that nothing was recorded: its service has no ledger, the attempt
cannot be built into a command any more, the command is not the one of the
receipt, or the storage fails. -/
def Forgets (w : ProcessWorld) (configured : Bool) (begun : Begun) (outcome : ReviewOutcome)
    (reading : Instant) (reply : StorageReply) (receipt : CommandReceipt) : Prop :=
  w.ledger.receipt? begun.loaded.activity.ownerId (evidenceKey begun) = some receipt ∧
  w.world.db.review? begun.loaded.activity.ownerId begun.loaded.activity.id = none ∧
  (configured = false ∨
    (∃ message, commandOf begun outcome reading = .error (.invalid message)) ∨
    ∃ command, commandOf begun outcome reading = .ok command ∧
      (command ≠ receipt.command ∨ reply ≠ .answered))

/-- Another call is about to store a review of the activity. -/
def Rivals (w : ProcessWorld) (i : Nat) (begun : Begun) : Prop :=
  ∃ j other draft, j ≠ i ∧ w.calls j = .reviewed other draft ∧
    other.loaded.activity.ownerId = begun.loaded.activity.ownerId ∧
    other.loaded.activity.id = begun.loaded.activity.id

/-- The ledger accepts the first command of the attempt, but a review is stored
already or about to be stored by another call, or the storage loses the answer. -/
def Overtakes (w : ProcessWorld) (now : Instant) (i : Nat) (configured : Bool) (begun : Begun)
    (outcome : ReviewOutcome) (reading : Instant) (reply : StorageReply) : Prop :=
  configured = true ∧ reply ≠ .failed ∧
  w.ledger.receipt? begun.loaded.activity.ownerId (evidenceKey begun) = none ∧
  (∃ command accepted, commandOf begun outcome reading = .ok command ∧
    record w.world.db.lineage w.ledger now begun.loaded.activity.ownerId command
      (evidenceKey begun) = .ok accepted) ∧
  (reply = .failedAfterCommit ∨
    (w.world.db.review? begun.loaded.activity.ownerId begun.loaded.activity.id).isSome ∨
    Rivals w i begun)

/-- An evidence step after which the review and the ledger part. -/
def Diverges (e : Transition ProcessWorld ProcessEvent) : Prop :=
  ∃ i model outcome reading reply configured begun,
    e.label.action = .call (.record i model outcome reading reply) ∧
    e.before.calls i = .reviewing configured begun ∧
    ((∃ receipt, Forgets e.before configured begun outcome reading reply receipt) ∨
      Overtakes e.before e.label.now i configured begun outcome reading reply)

/-! ## Agreement -/

def Noted (ledger : Ledger) (begun : Begun) (status : String) (eventIds : List Nat) : Prop :=
  Agrees ledger begun.loaded.activity.ownerId begun.loaded.activity.id begun.loaded.attempt.id
    status eventIds

/-- Every review says what the ledger holds, and so does every draft that can
still become a review. -/
structure Agreement (w : ProcessWorld) : Prop where
  reviews : ∀ review ∈ w.world.db.reviews, Agrees w.ledger review.ownerId
    review.activityInstanceId review.attemptId review.evidenceStatus review.evidenceEventIds
  drafts : ∀ i begun draft, w.calls i = .reviewed begun draft →
    (w.world.db.review? begun.loaded.activity.ownerId begun.loaded.activity.id).isSome ∨
      Noted w.ledger begun draft.evidenceStatus draft.evidenceEventIds

variable {note : EvidenceNote}

theorem Nothing.agrees (h : Nothing note)
    (hnone : ¬HoldsEvidence ledger ownerId activityId attemptId) :
    Agrees ledger ownerId activityId attemptId note.status note.eventIds := by
  obtain ⟨hst, hids⟩ := h
  refine ⟨⟨fun hholds => absurd hholds hnone, fun hrecd => absurd hrecd hst⟩, ?_⟩
  have hnil : eventsOf ledger ownerId activityId attemptId = [] := by
    by_contra hne
    exact hnone (Or.inr hne)
  rw [hids, hnil, List.map_nil]

theorem LedgerInv.agrees_receipt {rcpt : CommandReceipt} (hinv : LedgerInv ledger)
    (h : ledger.receipt? ownerId (reviewIdempotencyKey activityId attemptId) = some rcpt) :
    Agrees ledger ownerId activityId attemptId "recorded" rcpt.result.evidenceEventIds := by
  obtain ⟨hholds, hids⟩ := hinv.recorded _ _ _ _ h
  exact ⟨⟨fun _ => rfl, fun _ => hholds⟩, hids⟩

theorem ProcessInv.recordable (hinv : ProcessInv w) (hat : (w.calls i).at begun) :
    begun.loaded.activity.ownerId ∈ w.world.db.queue.owners ∧
      0 < begun.loaded.activity.ownerId ∧ safeKey (evidenceKey begun) = true := by
  obtain ⟨hown, hpos⟩ := hinv.world.owner (hinv.held i begun hat)
  exact ⟨hown, hpos,
    safeKey_reviewIdempotencyKey begun.loaded.activity.id_le begun.loaded.attempt.id_le⟩

theorem ProcessInv.noted_kept (hinv : ProcessInv w) (hat : (w.calls i).at begun)
    (hrec : recordEvidence w.world.db w.ledger reading now reply configured begun outcome =
      (.ok note, w.ledger))
    (hforgets : ∀ rcpt, ¬Forgets w configured begun outcome reading reply rcpt)
    (hunrev : w.world.db.review? begun.loaded.activity.ownerId begun.loaded.activity.id = none)
    (hnothing : Nothing note) : Noted w.ledger begun note.status note.eventIds := by
  cases hrcpt : w.ledger.receipt? begun.loaded.activity.ownerId (evidenceKey begun) with
  | none => exact hnothing.agrees (hinv.ledger.free _ _ _ hrcpt)
  | some rcpt =>
    -- The command is the one of the receipt, and the ledger answers with it.
    exfalso
    have hkept : ¬(configured = false ∨
        (∃ message, commandOf begun outcome reading = .error (.invalid message)) ∨
        ∃ cmd, commandOf begun outcome reading = .ok cmd ∧
          (cmd ≠ rcpt.command ∨ reply ≠ .answered)) :=
      fun hcases => hforgets rcpt ⟨hrcpt, hunrev, hcases⟩
    push Not at hkept
    obtain ⟨hconfigured, hbuilt, hsame⟩ := hkept
    unfold recordEvidence at hrec
    rw [if_neg hconfigured] at hrec
    cases hcmd : buildEvidenceCommand begun outcome (evaluatedAt begun.loaded reading) with
    | error failure =>
      rw [hcmd] at hrec
      cases failure with
      | invalid message => exact hbuilt message hcmd
      | scoring message => cases hrec
      | validation => cases hrec
    | ok cmd =>
      rw [hcmd] at hrec
      obtain ⟨rfl, rfl⟩ := hsame cmd hcmd
      obtain ⟨hown, hpos, hkey⟩ := hinv.recordable hat
      have hacc : record w.world.db.lineage w.ledger now begun.loaded.activity.ownerId
          rcpt.command (reviewIdempotencyKey begun.loaded.activity.id
            begun.loaded.attempt.id) = .ok (rcpt.result, w.ledger) := by
        rw [← evidenceKey, record_receipt hown hpos hkey hrcpt, if_pos rfl]
      simp only [recordCommand, hacc, reduceCtorEq, if_false] at hrec
      obtain ⟨hst, -⟩ := hnothing
      cases hrec
      exact hst rfl

variable {owner activity : Nat}

theorem attempt_ne {att : Nat} (h : (owner, activity) ≠ (ownerId, activityId)) :
    (owner, activity, att) ≠ (ownerId, activityId, attemptId) := by
  intro heq
  exact h (by rw [(Prod.mk.inj heq).1, (Prod.mk.inj (Prod.mk.inj heq).2).1])

/-- What an evidence step leaves of the reviews and of the other drafts. -/
theorem Agreement.appended {res : RecordEvaluationResponse} (h : Agreement w)
    (happ : Appended w.ledger begun.loaded.activity.ownerId begun.loaded.activity.id
      begun.loaded.attempt.id res ledger')
    (hunrev : w.world.db.review? begun.loaded.activity.ownerId begun.loaded.activity.id = none)
    (hrivals : ¬Rivals w i begun) :
    (∀ review ∈ w.world.db.reviews, Agrees ledger' review.ownerId review.activityInstanceId
      review.attemptId review.evidenceStatus review.evidenceEventIds) ∧
    ∀ j other draft, j ≠ i → w.calls j = .reviewed other draft →
      (w.world.db.review? other.loaded.activity.ownerId other.loaded.activity.id).isSome ∨
        Noted ledger' other draft.evidenceStatus draft.evidenceEventIds := by
  constructor
  · intro review hrev
    apply (h.reviews review hrev).appended happ
    apply attempt_ne
    intro heq
    exact Table.lookup_eq_none.mp hunrev review hrev heq
  · intro j other draft hne hcall
    rcases h.drafts j other draft hcall with hrevd | hnoted
    · exact Or.inl hrevd
    · refine Or.inr (Agrees.appended hnoted happ (attempt_ne ?_))
      intro heq
      exact hrivals ⟨j, other, draft, hne, hcall, (Prod.mk.inj heq).1, (Prod.mk.inj heq).2⟩

theorem Agreement.setCall {phase : Phase} (h : Agreement w)
    (hph : ∀ begun draft, phase ≠ .reviewed begun draft) : Agreement (w.setCall i phase) := by
  refine ⟨h.reviews, ?_⟩
  intro j begun draft hcall
  by_cases heq : j = i
  · rw [heq, setCall_self] at hcall
    exact absurd hcall (hph begun draft)
  · rw [setCall_ne heq] at hcall
    exact h.drafts j begun draft hcall

/-- What an evidence step that does not diverge leaves: the reviews and the
other drafts agree with the new ledger, and so does the note. -/
theorem Agreement.evidence {res : Except RecordFailure EvidenceNote} (h : Agreement w)
    (hinv : ProcessInv w) (hcall : w.calls i = .reviewing configured begun)
    (hrec : recordEvidence w.world.db w.ledger reading now reply configured begun outcome =
      (res, ledger'))
    (hforgets : ∀ rcpt, ¬Forgets w configured begun outcome reading reply rcpt)
    (hovertakes : ¬Overtakes w now i configured begun outcome reading reply) :
    ((∀ review ∈ w.world.db.reviews, Agrees ledger' review.ownerId review.activityInstanceId
        review.attemptId review.evidenceStatus review.evidenceEventIds) ∧
      ∀ j other draft, j ≠ i → w.calls j = .reviewed other draft →
        (w.world.db.review? other.loaded.activity.ownerId other.loaded.activity.id).isSome ∨
          Noted ledger' other draft.evidenceStatus draft.evidenceEventIds) ∧
    ∀ note, res = .ok note →
      (w.world.db.review? begun.loaded.activity.ownerId begun.loaded.activity.id).isSome ∨
        Noted ledger' begun note.status note.eventIds := by
  have hat : (w.calls i).at begun := Or.inl ⟨configured, hcall⟩
  rcases recordEvidence_cases hrec with ⟨rfl, hnothing⟩ | ⟨command, response, hconfigured,
    hcmd, hrep, hacc, hres⟩
  · refine ⟨⟨h.reviews, fun j other draft _ => h.drafts j other draft⟩, ?_⟩
    intro note hnote
    subst hnote
    cases hrev : w.world.db.review? begun.loaded.activity.ownerId begun.loaded.activity.id with
    | some review => exact Or.inl rfl
    | none =>
      exact Or.inr (hinv.noted_kept hat hrec hforgets hrev (hnothing note rfl))
  · rcases record_ok hacc with ⟨rcpt, hrcpt, hsame, rfl, rfl⟩ | ⟨hfree, happ, -, -⟩
    · refine ⟨⟨h.reviews, fun j other draft _ => h.drafts j other draft⟩, ?_⟩
      intro note hnote
      cases hrev : w.world.db.review? begun.loaded.activity.ownerId
          begun.loaded.activity.id with
      | some review => exact Or.inl rfl
      | none =>
        have hans : reply = .answered := by
          by_contra hlost
          exact hforgets rcpt ⟨hrcpt, hrev, Or.inr (Or.inr ⟨command, hcmd,
            Or.inr hlost⟩)⟩
        rw [hans, if_neg (by decide)] at hres
        obtain rfl := Except.ok.inj (hnote.symm.trans hres)
        exact Or.inr (hinv.ledger.agrees_receipt hrcpt)
    · obtain ⟨hact, hatt⟩ := buildEvidenceCommand_ids hcmd
      rw [hact, hatt] at happ
      have hcases : ¬(reply = .failedAfterCommit ∨
          (w.world.db.review? begun.loaded.activity.ownerId begun.loaded.activity.id).isSome ∨
          Rivals w i begun) := by
        intro hcases
        exact hovertakes ⟨hconfigured, hrep, hfree, ⟨command, _, hcmd, hacc⟩, hcases⟩
      push Not at hcases
      obtain ⟨hans, hunrev, hrivals⟩ := hcases
      refine ⟨h.appended happ (by simpa using hunrev) hrivals, ?_⟩
      intro note hnote
      rw [if_neg hans] at hres
      obtain rfl := Except.ok.inj (hnote.symm.trans hres)
      have hnone := hinv.ledger.free _ _ _ hfree
      exact Or.inr ⟨⟨fun _ => rfl, fun _ => happ.holds⟩, (happ.eventsOf_self hnone).symm⟩

variable {draft : ReviewDraft} {review : ActivityReview} {db' : Db}

theorem Stored.review?_isSome (h : Stored db now ownerId activityId draft review db')
    (hb : (db.review? owner activity).isSome) : (db'.review? owner activity).isSome := by
  obtain ⟨_, _, _, _, _, -, -, rfl, -⟩ := h.effect
  obtain ⟨old, hold⟩ := Option.isSome_iff_exists.mp hb
  have hlook : Table.lookup reviewKey (db.reviews ++ [review]) (owner, activity) = some old := by
    rw [Table.lookup, List.find?_append]
    have hf : db.reviews.find? (fun row => reviewKey row = (owner, activity)) = some old := hold
    rw [hf]
    rfl
  exact Option.isSome_iff_exists.mpr ⟨old, hlook⟩

theorem Agreement.stored (h : Agreement w) (hinv : ProcessInv w)
    (hcall : w.calls i = .reviewed begun draft)
    (hsto : Stored w.world.db now begun.loaded.activity.ownerId begun.loaded.activity.id draft
      review db')
    : Agreement ((w.setDb db').setCall i .idle) := by
  obtain ⟨hrevOwn, hrevAct⟩ := Prod.mk.inj hsto.key
  have hatt := hsto.inReview (hinv.held i begun (Or.inr ⟨draft, hcall⟩))
  have hnoted : Noted w.ledger begun draft.evidenceStatus draft.evidenceEventIds := by
    rcases h.drafts i begun draft hcall with hrevd | hnoted
    · rw [hsto.unreviewed] at hrevd
      cases hrevd
    · exact hnoted
  have hdb : Agreement (w.setDb db') := by
    constructor
    · intro other ho
      obtain ⟨_, _, _, _, _, -, -, rfl, -⟩ := hsto.effect
      rcases List.mem_append.mp ho with hold | hnew
      · exact h.reviews other hold
      · rw [List.mem_singleton.mp hnew, hrevOwn, hrevAct, hatt,
          hsto.evidence.1, hsto.evidence.2]
        exact hnoted
    · intro j other noted ho
      rcases h.drafts j other noted ho with hrevd | hagrees
      · exact Or.inl (hsto.review?_isSome hrevd)
      · exact Or.inr hagrees
  exact hdb.setCall (by simp)

theorem Called.agreement {action : CallAction} (h : Called w now action w') (hinv : ProcessInv w)
    (hagree : Agreement w) (hgoes : ¬Diverges ⟨w, ⟨now, .call action⟩, w'.tick now⟩) :
    Agreement w' := by
  cases h with
  | begun _ _ => exact hagree.setCall (by simp)
  | unchanged => exact hagree
  | @recorded i model outcome reading reply configured begun ledger result phase hcall hrec
      hph =>
      have hstep : ¬((∃ rcpt, Forgets w configured begun outcome reading reply rcpt) ∨
          Overtakes w now i configured begun outcome reading reply) := by
        intro hcases
        exact hgoes ⟨i, model, outcome, reading, reply, configured, begun, rfl, hcall, hcases⟩
      push Not at hstep
      obtain ⟨⟨hreviews, hdrafts⟩, hnote⟩ := hagree.evidence hinv hcall hrec hstep.1 hstep.2
      refine ⟨hreviews, ?_⟩
      intro j other draft ho
      by_cases heq : j = i
      · rw [heq, setCall_self] at ho
        rcases hph with rfl | ⟨note, hres, rfl⟩
        · cases ho
        · cases ho
          exact hnote note hres
      · rw [setCall_ne heq] at ho
        exact hdrafts j other draft heq ho
  | stored hcall hstore => exact hagree.stored hinv hcall (storeReview_ok hstore)
  | ended _ => exact hagree.setCall (by simp)

theorem ProcessStep.agreement {e : ProcessEvent} (h : ProcessStep w e w') (hinv : ProcessInv w)
    (hagree : Agreement w) (hgoes : ¬Diverges ⟨w, e, w'⟩) : Agreement w' := by
  obtain ⟨hclk, after, hacts, rfl⟩ := h
  cases e with
  | mk now action =>
    cases hacts with
    | outside ho hworld =>
      have hreviews := hworld.reviews ho
      refine ⟨?_, ?_⟩
      · rw [ProcessWorld.tick, hreviews]
        exact hagree.reviews
      · intro i begun draft hcall
        rw [ProcessWorld.tick, Db.review?, hreviews]
        exact hagree.drafts i begun draft hcall
    | call hcall =>
      have ha := (callAct_called hcall).agreement hinv hagree hgoes
      exact ⟨ha.reviews, ha.drafts⟩

theorem agreement_initial (h : ProcessInitial w) : Agreement w := by
  constructor
  · intro review hrev
    rw [h.reviews] at hrev
    cases hrev
  · intro i begun draft hcall
    rw [h.idle i] at hcall
    cases hcall

section Samples

variable {tasks : Nat → Task} {queue : Jobs.Store} {clock : Instant} {calls : Nat → Phase}

theorem assessment_requested : ∃ trace tasks, (∀ e ∈ trace, ¬Diverges e) ∧
    ProcessRun assessmentStart trace
      (assessmentWorld tasks assessmentQueue 40 assessmentLedger fun _ => .idle) := by
  have hreq : ProcessStep assessmentStart ⟨20, .outside (.request 0 1 7)⟩ _ :=
    ⟨by decide, _, .outside (by simp) (.request rfl), rfl⟩
  have hbegin : beginRequest assessmentDb 30 1 7 true =
      .ok (some { assessmentLoaded with activity := assessmentActivity },
        reviewDb (Store.empty [1])) := rfl
  have hfst := (Run.single hreq).snoc (a := ⟨30, .outside (.first 0)⟩)
    ⟨by decide, _, .outside (by simp) (.firstDone rfl rfl hbegin), rfl⟩
  have hfin : finishRequest (reviewDb (Store.empty [1])) 40 40 1
      { assessmentLoaded with activity := assessmentActivity } =
        .ok (Jobs.response assessmentJob, reviewDb assessmentQueue) := rfl
  have hsec := hfst.snoc (a := ⟨40, .outside (.second 0 40)⟩)
    ⟨by decide, _, .outside (by simp) (.secondDone rfl hfin), rfl⟩
  refine ⟨_, _, ?_, processInitial_assessmentStart, hsec⟩
  rintro e he ⟨i, model, outcome, reading, reply, configured, begun, hact, -⟩
  simp only [List.cons_append, List.nil_append, List.mem_cons, List.not_mem_nil, or_false] at he
  rcases he with rfl | rfl | rfl
  · cases hact
  · cases hact
  · cases hact

theorem assessment_queue (cmd : Jobs.Command) (hclk : clock ≤ now)
    (ho : ∀ ownerId enqueued key, cmd ≠ .enqueue ownerId enqueued key) :
    ProcessStep (assessmentWorld tasks queue clock ledger calls)
      ⟨now, .outside (.queue cmd (exec queue now cmd).1)⟩
      (assessmentWorld tasks (exec queue now cmd).2 now ledger calls) := by
  refine ⟨hclk, _, .outside (by simp) (.queue ?_ rfl), rfl⟩
  intro ownerId enqueued key henq
  exact absurd henq (ho ownerId enqueued key)

theorem assessment_begins (hclaimed : claimed (reviewDb queue) 1 7 = true)
    (hclk : clock ≤ now) (hidle : calls i = .idle) :
    ProcessStep (assessmentWorld tasks queue clock ledger calls)
      ⟨now, .call (.start i 1 7 true)⟩
      ((assessmentWorld tasks queue now ledger calls).setCall i
        (.reviewing true assessmentBegun)) := by
  refine ⟨hclk, (assessmentWorld tasks queue clock ledger calls).setCall i
    (.reviewing true assessmentBegun), .call ?_, rfl⟩
  have hbegin : beginProcess (reviewDb queue) 1 7 = .ok (.inr assessmentBegun) := rfl
  simp only [callAct, assessmentWorld, hidle, hclaimed, if_true, hbegin]

theorem assessment_records (hcall : calls i = .reviewing true assessmentBegun)
    (hclk : clock ≤ now)
    (hrec : recordEvidence (reviewDb queue) ledger now now .answered true assessmentBegun
      sampleOutcome = (.ok note, ledger'))
    :
    ProcessStep (assessmentWorld tasks queue clock ledger calls)
      ⟨now, .call (.record i "claude" sampleOutcome now .answered)⟩
      ((assessmentWorld tasks queue now ledger' calls).setCall i
        (.reviewed assessmentBegun (draftOf assessmentBegun "claude" sampleOutcome note))) := by
  refine ⟨hclk, (assessmentWorld tasks queue clock ledger' calls).setCall i _, .call ?_, rfl⟩
  simp only [callAct, assessmentWorld, hcall, hrec]

theorem assessment_stops (hclk : clock ≤ now) : ∃ idle, idle i = .idle ∧
    ProcessStep (assessmentWorld tasks queue clock ledger calls) ⟨now, .call (.stop i)⟩
      (assessmentWorld tasks queue now ledger idle) :=
  ⟨_, setCall_self _ _ _, hclk, _, .call rfl, rfl⟩

theorem announceFeedback_accepts {reviewId : Nat}
    (hpay : validateReferencePayloadV1
      { schemaVersion := 1, subjectId := activityId, relatedId := some reviewId } = true)
    (hkey : safeKey (feedbackKey reviewId) = true) (hnone : db.activityEvents = []) :
    ∃ db', announceFeedback db now ownerId activityId reviewId = .ok db' := by
  have hchk : raiseFirst [
      (!validateReferencePayloadV1
          (feedbackEvent db.queue.nextEventId ownerId activityId reviewId now).payload,
        ReviewError.workflow "structured payload is invalid"),
      (!safeKey
          (feedbackEvent db.queue.nextEventId ownerId activityId reviewId now).idempotencyKey,
        .sql),
      (db.activityEvents.any fun other => other.ownerId == ownerId && other.idempotencyKey ==
          (feedbackEvent db.queue.nextEventId ownerId activityId reviewId now).idempotencyKey,
        .sql)] = .ok () := by
    simp only [feedbackEvent, hpay, hkey, hnone]
    rfl
  exact ⟨_, bind_ok_iff.mpr ⟨_, hchk, rfl⟩⟩

theorem storeReview_assessment (queue : Jobs.Store) (draft : ReviewDraft) :
    ∃ db, storeReview (reviewDb queue) late 1 7 draft =
      .ok (newReview 1 1 7 3 late draft, db) := by
  let inserted : Db :=
    { reviewDb queue with reviews := [newReview 1 1 7 3 late draft], nextReviewId := 2 }
  let moved : Db :=
    { inserted with
      activities := [{ assessmentActivity with state := .feedbackReady, optimisticVersion := 6 }] }
  let stamped : Db :=
    { moved with statuses := [⟨1, 7, .ready, .ready, none, none, 30, late⟩] }
  have hload : (reviewDb queue).load 1 7 = some assessmentLoaded := rfl
  have hins : insertReview (reviewDb queue) (newReview 1 1 7 3 late draft) = .ok inserted := rfl
  have hsettle : settle inserted assessmentLoaded = .ok moved := rfl
  have hst : setStatus moved late 1 7 .ready none = .ok stamped := rfl
  have hpay : validateReferencePayloadV1
      { schemaVersion := 1, subjectId := 7, relatedId := some 1 } = true := by
    decide
  obtain ⟨db, hannounce⟩ : ∃ db, announceFeedback stamped late 1 7 1 = .ok db :=
    announceFeedback_accepts hpay (by decide) rfl
  refine ⟨db, ?_⟩
  rw [storeReview, hload]
  exact bind_ok_iff.mpr ⟨_, hins, bind_ok_iff.mpr ⟨_, hsettle, bind_ok_iff.mpr ⟨_, hst,
    bind_ok_iff.mpr ⟨_, hannounce, rfl⟩⟩⟩⟩

theorem assessment_stores (hcall : calls i = .reviewed assessmentBegun draft)
    (hclk : clock ≤ late) :
    ∃ w, ProcessStep (assessmentWorld tasks queue clock ledger calls) ⟨late, .call (.store i)⟩ w ∧
      w.ledger = ledger ∧ newReview 1 1 7 3 late draft ∈ w.world.db.reviews := by
  obtain ⟨db, hstore⟩ := storeReview_assessment queue draft
  have hact : callAct (assessmentWorld tasks queue clock ledger calls) late (.store i) =
      some (((assessmentWorld tasks queue clock ledger calls).setDb db).setCall i .idle) := by
    have hfull : storeReview (reviewDb queue) late assessmentBegun.loaded.activity.ownerId
        assessmentBegun.loaded.activity.id draft =
          .ok (newReview 1 1 7 3 late draft, db) := hstore
    simp only [callAct, assessmentWorld, hcall, hfull]
  refine ⟨_, ⟨hclk, _, .call hact, rfl⟩, rfl, ?_⟩
  obtain ⟨_, _, _, _, _, -, -, hdb, -⟩ := (storeReview_ok hstore).effect
  have hrows : db.reviews = (reviewDb queue).reviews ++ [newReview 1 1 7 3 late draft] :=
    congrArg Db.reviews hdb
  show newReview 1 1 7 3 late draft ∈ db.reviews
  rw [hrows]
  simp

theorem buildEvidenceCommand_at {begun : Begun} {outcome : ReviewOutcome}
    {earl later : Instant} {cmd : EvidenceEvaluationCommand}
    (h : buildEvidenceCommand begun outcome earl = .ok cmd) :
    buildEvidenceCommand begun outcome later = .ok { cmd with evaluatedAt := later } := by
  simp only [buildEvidenceCommand, bind_ok_iff] at h ⊢
  obtain ⟨exercise, hexer, skills, hskills, _, hassigned, _, hchecked, hres⟩ := h
  cases hres
  exact ⟨exercise, hexer, skills, hskills, _, hassigned, _, hchecked, rfl⟩

theorem assessment_accepted :
    buildEvidenceCommand assessmentBegun sampleOutcome 70 = .ok (assessmentCommand 70) ∧
      (record (reviewDb claimedQueue).lineage assessmentLedger 70 1 (assessmentCommand 70)
        (evidenceKey assessmentBegun)).isOk = true :=
  ⟨by decide +kernel, by decide +kernel⟩

theorem record_assessment : ∃ response ledger', Appended assessmentLedger 1 7 3 response ledger' ∧
    ledger'.receipt? 1 (evidenceKey assessmentBegun) =
      some ⟨1, evidenceKey assessmentBegun, assessmentCommand 70, response, 70⟩ ∧
    recordEvidence (reviewDb claimedQueue) assessmentLedger 70 70 .answered true assessmentBegun
      sampleOutcome = (.ok (.recorded response.evidenceEventIds), ledger') := by
  have haccepts := assessment_accepted.2
  cases hrec : record (reviewDb claimedQueue).lineage assessmentLedger 70 1
      (assessmentCommand 70) (evidenceKey assessmentBegun) with
  | error failure =>
    rw [hrec] at haccepts
    cases haccepts
  | ok accepted =>
    obtain ⟨response, ledger'⟩ := accepted
    rcases record_ok hrec with ⟨rcpt, hrcpt, -⟩ | ⟨-, happ, hreceipts, -⟩
    · cases hrcpt
    · refine ⟨response, ledger', happ, ?_, ?_⟩
      · rw [Ledger.receipt?, hreceipts]
        simp [assessmentLedger]
      · have hcmd : buildEvidenceCommand assessmentBegun sampleOutcome
            (evaluatedAt assessmentBegun.loaded 70) = .ok (assessmentCommand 70) :=
          assessment_accepted.1
        have hfull : record (reviewDb claimedQueue).lineage assessmentLedger 70
            assessmentBegun.loaded.activity.ownerId (assessmentCommand 70)
            (reviewIdempotencyKey assessmentBegun.loaded.activity.id
              assessmentBegun.loaded.attempt.id) = .ok (response, ledger') := hrec
        simp only [recordEvidence, hcmd, recordCommand, hfull, reduceCtorEq, if_false]

theorem record_assessment_late {response : RecordEvaluationResponse}
    (hrcpt : ledger.receipt? 1 (evidenceKey assessmentBegun) =
      some ⟨1, evidenceKey assessmentBegun, assessmentCommand 70, response, 70⟩) :
    recordEvidence (reviewDb retriedQueue) ledger late late .answered true assessmentBegun
      sampleOutcome = (.ok (.unrecorded
        "EvidenceConflict: Idempotency-Key was reused for another evaluation"), ledger) := by
  have hcmd : buildEvidenceCommand assessmentBegun sampleOutcome
      (evaluatedAt assessmentBegun.loaded late) = .ok (assessmentCommand late) :=
    buildEvidenceCommand_at assessment_accepted.1
  have hne : assessmentCommand 70 ≠ assessmentCommand late := by
    intro hsame
    have hinstant := congrArg EvidenceEvaluationCommand.evaluatedAt hsame
    exact absurd hinstant (by decide)
  have hclash : record (reviewDb retriedQueue).lineage ledger late 1 (assessmentCommand late)
      (evidenceKey assessmentBegun) =
        .error (.conflict "Idempotency-Key was reused for another evaluation") := by
    rw [record_receipt (by decide) (by decide) (by decide) hrcpt, if_neg hne]
  have hfull : record (reviewDb retriedQueue).lineage ledger late
      assessmentBegun.loaded.activity.ownerId (assessmentCommand late)
      (reviewIdempotencyKey assessmentBegun.loaded.activity.id
        assessmentBegun.loaded.attempt.id) =
          .error (.conflict "Idempotency-Key was reused for another evaluation") := hclash
  simp only [recordEvidence, hcmd, recordCommand, hfull, reduceCtorEq, if_false]
  rfl

theorem not_diverges {e : Transition ProcessWorld ProcessEvent}
    (h : ∀ i model outcome reading reply,
      e.label.action ≠ .call (.record i model outcome reading reply)) : ¬Diverges e := by
  rintro ⟨i, model, outcome, reading, reply, configured, begun, hact, -⟩
  exact h i model outcome reading reply hact

theorem forall_mem_snoc {α : Type} {P : α → Prop} {xs : List α} {x : α} (h : ∀ y ∈ xs, P y)
    (hx : P x) : ∀ y ∈ xs ++ [x], P y := by
  intro y hy
  rcases List.mem_append.mp hy with hold | hnew
  · exact h y hold
  · rw [List.mem_singleton.mp hnew]
    exact hx

theorem assessment_recorded : ∃ trace tasks response ledger calls, (∀ e ∈ trace, ¬Diverges e) ∧
    Appended assessmentLedger 1 7 3 response ledger ∧
    ledger.receipt? 1 (evidenceKey assessmentBegun) =
      some ⟨1, evidenceKey assessmentBegun, assessmentCommand 70, response, 70⟩ ∧
    calls 0 = .reviewed assessmentBegun (draftOf assessmentBegun "claude" sampleOutcome
      (.recorded response.evidenceEventIds)) ∧
    ProcessRun assessmentStart trace (assessmentWorld tasks claimedQueue 70 ledger calls) := by
  obtain ⟨trace, tasks, hgoes, hinit, hrun⟩ := assessment_requested
  obtain ⟨response, ledger, happ, hrcpt, hrec⟩ := record_assessment
  have hclaim : ProcessStep
      (assessmentWorld tasks assessmentQueue 40 assessmentLedger fun _ => .idle)
      ⟨50, .outside (.queue (.claim sampleClaim []) _)⟩
      (assessmentWorld tasks claimedQueue 50 assessmentLedger fun _ => .idle) :=
    assessment_queue _ (by decide) (by simp)
  have hbegins : ProcessStep (assessmentWorld tasks claimedQueue 50 assessmentLedger fun _ => .idle)
      ⟨60, .call (.start 0 1 7 true)⟩ _ := assessment_begins (by decide) (by decide) rfl
  have hrecs : ProcessStep (assessmentWorld tasks claimedQueue 60 assessmentLedger
      ((assessmentWorld tasks claimedQueue 60 assessmentLedger fun _ => .idle).setCall 0
        (.reviewing true assessmentBegun)).calls)
      ⟨70, .call (.record 0 "claude" sampleOutcome 70 .answered)⟩ _ :=
    assessment_records rfl (by decide) hrec
  refine ⟨_, tasks, response, ledger, _, ?_, happ, hrcpt, ?_, hinit,
    ((hrun.snoc hclaim).snoc hbegins).snoc hrecs⟩
  · refine forall_mem_snoc (forall_mem_snoc (forall_mem_snoc hgoes (not_diverges ?_))
      (not_diverges ?_)) ?_
    · simp
    · simp
    · rintro ⟨i, model, outcome, reading, reply, configured, begun, hact, hcall, hcases⟩
      cases hact
      cases hcall
      rcases hcases with ⟨rcpt, hsome, -⟩ | ⟨-, -, -, -, hlost | hrevd | hrivals⟩
      · cases hsome
      · cases hlost
      · cases hrevd
      · obtain ⟨j, other, draft, hne, hrival, -⟩ := hrivals
        simp [assessmentWorld, ProcessWorld.setCall, hne] at hrival
  · rfl

end Samples

end TamForge.Reviews
