import TamForge.Evidence.Proofs.Recording
import TamForge.Reviews.Proofs.NoReviewLost
import TamForge.Reviews.Process

/-!
# What calls of `process` keep

Everything that holds in every run of the review worker: the receipts in the
ledger are those of the evidence it holds, a call works on an activity in
review, and so is every activity with a review.
-/

namespace TamForge.Reviews

open Agents Evidence Jobs Learning Models
open ProofSupport

variable {w w' : ProcessWorld} {now reading : Instant} {db : Db} {ledger ledger' : Ledger}
  {ownerId activityId attemptId i : Nat} {begun : Begun} {outcome : ReviewOutcome}
  {reply : StorageReply} {configured : Bool}

/-! ## The key of an attempt -/

theorem reviewIdempotencyKey_inj {act att other second : Nat}
    (h : reviewIdempotencyKey act att = reviewIdempotencyKey other second) :
    act = other ∧ att = second := by
  have hchars : ∀ first second : String,
      ("claude-review-a" ++ first ++ "-t" ++ second).toList =
        "claude-review-a".toList ++ (first.toList ++ '-' :: ('t' :: second.toList)) := by
    intro first second
    have hmiddle : "-t".toList = ['-', 't'] := by decide
    simp only [String.toList_append, hmiddle, List.append_assoc, List.cons_append, List.nil_append]
  have hlists := (hchars (toString act) (toString att)).symm.trans
    ((congrArg String.toList h).trans (hchars (toString other) (toString second)))
  have htails := List.append_cancel_left hlists
  obtain ⟨hfst, hsec⟩ := Keys.append_sep_inj
    (Keys.not_mem_toString (by decide) act) (Keys.not_mem_toString (by decide) other) htails
  exact ⟨Keys.toString_inj hfst, Keys.toString_inj (List.cons.inj hsec).2⟩

/-! ## What the ledger holds -/

def Agrees (ledger : Ledger) (ownerId activityId attemptId : Nat) (status : String)
    (eventIds : List Nat) : Prop :=
  (HoldsEvidence ledger ownerId activityId attemptId ↔ status = "recorded") ∧
    eventIds = (eventsOf ledger ownerId activityId attemptId).map SkillEvidenceEvent.id

structure LedgerInv (ledger : Ledger) : Prop where
  free : ∀ ownerId activityId attemptId,
    ledger.receipt? ownerId (reviewIdempotencyKey activityId attemptId) = none →
    ¬HoldsEvidence ledger ownerId activityId attemptId
  recorded : ∀ ownerId activityId attemptId receipt,
    ledger.receipt? ownerId (reviewIdempotencyKey activityId attemptId) = some receipt →
    HoldsEvidence ledger ownerId activityId attemptId ∧ receipt.result.evidenceEventIds =
      (eventsOf ledger ownerId activityId attemptId).map SkillEvidenceEvent.id

theorem Agrees.appended {status : String} {eventIds : List Nat} {owner act att : Nat}
    {res : RecordEvaluationResponse}
    (hagrees : Agrees ledger owner act att status eventIds)
    (h : Appended ledger ownerId activityId attemptId res ledger')
    (hne : (owner, act, att) ≠ (ownerId, activityId, attemptId)) :
    Agrees ledger' owner act att status eventIds := by
  obtain ⟨hholds, hids⟩ := hagrees
  refine ⟨(h.holds_other hne).trans hholds, ?_⟩
  rw [(h.other hne).2]
  exact hids

theorem LedgerInv.record {cmd : EvidenceEvaluationCommand}
    {res : RecordEvaluationResponse} {lineage : Lineage} (hinv : LedgerInv ledger)
    (h : record lineage ledger now ownerId cmd
      (reviewIdempotencyKey cmd.activityId cmd.attemptId) = .ok (res, ledger')) :
    LedgerInv ledger' := by
  rcases record_ok h with ⟨rcpt, -, -, -, rfl⟩ | ⟨hfree, happ, hreceipts, -⟩
  · exact hinv
  · have hnone := hinv.free _ _ _ hfree
    have hfind : ∀ owner key, ledger'.receipt? owner key = (ledger.receipt? owner key).or
        (if ownerId = owner ∧ reviewIdempotencyKey cmd.activityId cmd.attemptId = key then
          some ⟨ownerId, reviewIdempotencyKey cmd.activityId cmd.attemptId, cmd,
            res, now⟩
        else none) := by
      intro owner key
      rw [Ledger.receipt?, Ledger.receipt?, hreceipts, List.find?_append]
      congr 1
      by_cases hmatch : ownerId = owner ∧
          reviewIdempotencyKey cmd.activityId cmd.attemptId = key
      · simp [List.find?, hmatch]
      · rw [if_neg hmatch]
        simp [List.find?, hmatch]
    constructor
    · intro owner act att hkey
      rw [hfind, Option.or_eq_none_iff] at hkey
      have hne : (owner, act, att) ≠ (ownerId, cmd.activityId, cmd.attemptId) := by
        rintro ⟨⟩
        simp at hkey
      rw [happ.holds_other hne]
      exact hinv.free _ _ _ hkey.1
    · intro owner act att rcpt hkey
      by_cases heq : (owner, act, att) = (ownerId, cmd.activityId, cmd.attemptId)
      · obtain ⟨rfl, rfl, rfl⟩ : owner = ownerId ∧ act = cmd.activityId ∧
            att = cmd.attemptId := by simpa using heq
        rw [hfind, hfree] at hkey
        simp only [and_self, if_true, Option.none_or, Option.some.injEq] at hkey
        subst hkey
        exact ⟨happ.holds, (happ.eventsOf_self hnone).symm⟩
      · have ho : ¬(ownerId = owner ∧
            reviewIdempotencyKey cmd.activityId cmd.attemptId =
              reviewIdempotencyKey act att) := by
          rintro ⟨rfl, hsame⟩
          obtain ⟨rfl, rfl⟩ := reviewIdempotencyKey_inj hsame
          exact heq rfl
        rw [hfind, if_neg ho, Option.or_none] at hkey
        rw [happ.holds_other heq, (happ.other heq).2]
        exact hinv.recorded _ _ _ _ hkey

/-! ## One evidence step -/

theorem buildEvidenceCommand_ids {evaluatedAt : Instant} {cmd : EvidenceEvaluationCommand}
    (h : buildEvidenceCommand begun outcome evaluatedAt = .ok cmd) :
    cmd.activityId = begun.loaded.activity.id ∧
      cmd.attemptId = begun.loaded.attempt.id := by
  simp only [buildEvidenceCommand, bind_ok_iff] at h
  obtain ⟨exercise, -, skills, -, _, -, _, -, h⟩ := h
  cases h
  exact ⟨rfl, rfl⟩

theorem unrecorded_ne (message : String) :
    (EvidenceNote.unrecorded message).status ≠ "recorded" := by
  intro h
  have hlists := congrArg String.toList h
  simp [EvidenceNote.unrecorded] at hlists

def Nothing (note : EvidenceNote) : Prop := note.status ≠ "recorded" ∧ note.eventIds = []

def commandOf (begun : Begun) (outcome : ReviewOutcome) (reading : Instant) :
    Except BuildFailure EvidenceEvaluationCommand :=
  buildEvidenceCommand begun outcome (evaluatedAt begun.loaded reading)

def evidenceKey (begun : Begun) : String :=
  reviewIdempotencyKey begun.loaded.activity.id begun.loaded.attempt.id

/-- An evidence step leaves the ledger as it is and notes nothing, or the
ledger accepts the command. -/
theorem recordEvidence_cases {res : Except RecordFailure EvidenceNote}
    (h : recordEvidence db ledger reading now reply configured begun outcome =
      (res, ledger')) :
    (ledger' = ledger ∧ ∀ note, res = .ok note → Nothing note) ∨
    ∃ cmd response, configured = true ∧ commandOf begun outcome reading = .ok cmd ∧
      reply ≠ .failed ∧ record db.lineage ledger now begun.loaded.activity.ownerId cmd
        (evidenceKey begun) = .ok (response, ledger') ∧
      res = .ok (if reply = .failedAfterCommit then .storageFailed
        else .recorded response.evidenceEventIds) := by
  unfold recordEvidence at h
  split at h
  · cases h
    left
    refine ⟨rfl, ?_⟩
    rintro note ⟨⟩
    exact ⟨by decide, rfl⟩
  · rename_i hconfigured
    split at h
    · cases h
      left
      refine ⟨rfl, ?_⟩
      rintro note ⟨⟩
      exact ⟨unrecorded_ne _, rfl⟩
    · cases h
      left
      exact ⟨rfl, fun note hnote => by cases hnote⟩
    · rename_i cmd hcmd
      unfold recordCommand at h
      split at h
      · cases h
        left
        refine ⟨rfl, ?_⟩
        rintro note ⟨⟩
        exact ⟨unrecorded_ne _, rfl⟩
      · rename_i hrep
        split at h
        · rename_i failure hrec
          cases h
          left
          refine ⟨rfl, ?_⟩
          intro note hnote
          unfold noteOf at hnote
          split at hnote
          · cases hnote
            exact ⟨unrecorded_ne _, rfl⟩
          · cases hnote
        · rename_i response appended hrec
          right
          have hset : configured = true := by simpa using hconfigured
          refine ⟨cmd, response, hset, hcmd, hrep, ?_, ?_⟩
          · split at h
            · cases h
              exact hrec
            · cases h
              exact hrec
          · split at h
            · rename_i ha
              cases h
              rw [if_pos ha]
            · rename_i ha
              cases h
              rw [if_neg ha]

/-! ## What a call can do -/

inductive Called (w : ProcessWorld) (now : Instant) : CallAction → ProcessWorld → Prop
  | begun {i ownerId activityId : Nat} {configured : Bool} {begun : Begun} :
      claimed w.world.db ownerId activityId = true →
      beginProcess w.world.db ownerId activityId = .ok (.inr begun) →
      Called w now (.start i ownerId activityId configured)
        (w.setCall i (.reviewing configured begun))
  | unchanged {i ownerId activityId : Nat} {configured : Bool} :
      Called w now (.start i ownerId activityId configured) w
  | recorded {i : Nat} {model : String} {outcome : ReviewOutcome} {reading : Instant}
      {reply : StorageReply} {configured : Bool} {begun : Begun} {ledger : Ledger}
      {result : Except RecordFailure EvidenceNote} {phase : Phase} :
      w.calls i = .reviewing configured begun →
      recordEvidence w.world.db w.ledger reading now reply configured begun outcome =
        (result, ledger) →
      (phase = .idle ∨ ∃ note, result = .ok note ∧
        phase = .reviewed begun (draftOf begun model outcome note)) →
      Called w now (.record i model outcome reading reply)
        ({ w with ledger := ledger }.setCall i phase)
  | stored {i : Nat} {begun : Begun} {draft : ReviewDraft} {review : ActivityReview} {db : Db} :
      w.calls i = .reviewed begun draft →
      storeReview w.world.db now begun.loaded.activity.ownerId begun.loaded.activity.id draft =
        .ok (review, db) →
      Called w now (.store i) ((w.setDb db).setCall i .idle)
  | ended {action : CallAction} {i : Nat} : action = .store i ∨ action = .stop i →
      Called w now action (w.setCall i .idle)

theorem callAct_called {action : CallAction} (h : callAct w now action = some w') :
    Called w now action w' := by
  cases action with
  | start i ownerId activityId configured =>
    simp only [callAct] at h
    split at h
    · split at h
      · rename_i hclaimed
        split at h
        · rename_i begun hbegun
          cases h
          exact .begun hclaimed hbegun
        · cases h
          exact .unchanged
        · cases h
          exact .unchanged
      · cases h
    · cases h
  | record i model outcome reading reply =>
    simp only [callAct] at h
    split at h
    · rename_i configured begun hcall
      split at h
      · rename_i note ledger hrec
        cases h
        exact .recorded hcall hrec (Or.inr ⟨note, rfl, rfl⟩)
      · rename_i failure ledger hrec
        cases h
        exact .recorded hcall hrec (Or.inl rfl)
    · cases h
  | store i =>
    simp only [callAct] at h
    split at h
    · rename_i begun draft hcall
      split at h
      · rename_i review db hstore
        cases h
        exact .stored hcall hstore
      · cases h
        exact .ended (Or.inl rfl)
    · cases h
  | stop i =>
    simp only [callAct] at h
    cases h
    exact .ended (Or.inr rfl)

@[simp] theorem setCall_self (w : ProcessWorld) (i : Nat) (phase : Phase) :
    (w.setCall i phase).calls i = phase := by
  simp [ProcessWorld.setCall]

theorem setCall_ne {j : Nat} (hne : j ≠ i) (phase : Phase) :
    (w.setCall i phase).calls j = w.calls j := by
  simp [ProcessWorld.setCall, hne]

/-- The call of an activity holds it in review. -/
def Held (db : Db) (begun : Begun) : Prop :=
  InReview db begun.loaded.activity.ownerId begun.loaded.activity.id begun.loaded.attempt.id

/-- The call stands at this work. -/
def Phase.at (phase : Phase) (begun : Begun) : Prop :=
  (∃ configured, phase = .reviewing configured begun) ∨ ∃ draft, phase = .reviewed begun draft

structure ProcessInv (w : ProcessWorld) : Prop where
  world : WorldInv w.world
  ledger : LedgerInv w.ledger
  held : ∀ i begun, (w.calls i).at begun → Held w.world.db begun
  reviews : ∀ review ∈ w.world.db.reviews,
    InReview w.world.db review.ownerId review.activityInstanceId review.attemptId

theorem beginProcess_load (h : beginProcess db ownerId activityId = .ok (.inr begun)) :
    db.load ownerId activityId = some begun.loaded := by
  unfold beginProcess at h
  split at h
  · rename_i loaded hload
    split at h
    · cases h
    · simp only [bind_ok_iff] at h
      obtain ⟨⟨bundle, key⟩, -, h⟩ := h
      split at h
      · split at h
        · cases h
          exact hload
        · cases h
      · cases h
  · cases h

theorem WorldInv.held_begun {world : World} (hinv : WorldInv world)
    (hclaimed : claimed world.db ownerId activityId = true)
    (h : beginProcess world.db ownerId activityId = .ok (.inr begun)) : Held world.db begun := by
  have hload := beginProcess_load h
  obtain ⟨job, hjob, hcols⟩ := List.any_eq_true.mp hclaimed
  simp only [Bool.and_eq_true, beq_iff_eq] at hcols
  obtain ⟨⟨⟨hown, hkind⟩, hsubj⟩, -⟩ := hcols
  obtain ⟨attemptId, ⟨current, hcur, hreached, -⟩, -⟩ := hinv.jobs job hjob hkind
  rw [hown, hsubj, hload] at hcur
  obtain ⟨hloadedOwn, hloadedId⟩ := load_key hload
  cases hcur
  refine ⟨begun.loaded, ?_, hreached, rfl⟩
  rw [hloadedOwn, hloadedId]
  exact hload

theorem Learns.refl {world : World} (hinv : WorldInv world) : Learns world.db world.db where
  queue := rfl
  reviews := rfl
  nextReviewId := rfl
  activityEvents := rfl
  statuses := rfl
  keyed := hinv.keyed
  owners := hinv.owners
  kept := fun _ _ _ hact _ => ⟨hact, rfl⟩
  entered := fun _ _ _ hact _ => hact

theorem Called.acts {action : CallAction} (h : Called w now action w')
    (hinv : WorldInv w.world) : ∃ action, Acts w.world now action w'.world := by
  have hsame : Acts w.world now .learn w.world := .learn (Learns.refl hinv)
  cases h with
  | stored _ hstore => exact ⟨_, .store hstore⟩
  | begun _ _ => exact ⟨_, hsame⟩
  | unchanged => exact ⟨_, hsame⟩
  | recorded _ _ _ => exact ⟨_, hsame⟩
  | ended _ => exact ⟨_, hsame⟩

theorem Acts.reviews {world world' : World} {action : Action} (h : Acts world now action world')
    (ho : ∀ ownerId activityId draft, action ≠ .store ownerId activityId draft) :
    world'.db.reviews = world.db.reviews := by
  cases h with
  | firstDone _ _ hbegin =>
    rcases beginRequest_ok hbegin with ⟨-, -, rfl⟩ | ⟨loaded, -, hbegan⟩
    · rfl
    · obtain ⟨moved, statuses, rfl, -, ⟨-, rfl⟩ | ⟨-, decision, -, rfl⟩⟩ := hbegan.effect
      · rfl
      · rfl
  | secondDone _ hfin =>
    obtain ⟨res, queue, -, -, rfl⟩ := finishRequest_ok hfin
    rfl
  | store hstore => exact absurd rfl (ho _ _ _)
  | learn hlearns => exact hlearns.reviews
  | _ => rfl

/-! ## What holds in every run -/

/-- A call stands at what it stood at, or has just begun with an activity in
review. -/
theorem Called.at {action : CallAction} (h : Called w now action w') (hinv : WorldInv w.world)
    (hat : (w'.calls i).at begun) : (w.calls i).at begun ∨ Held w.world.db begun := by
  have hkept : ∀ j phase, (∀ other, phase.at other → (w.calls j).at other) →
      ((w.setCall j phase).calls i).at begun → (w.calls i).at begun := by
    intro j phase hph hcall
    by_cases heq : i = j
    · subst heq
      rw [setCall_self] at hcall
      exact hph begun hcall
    · rwa [setCall_ne heq] at hcall
  have hidle : ∀ other, ¬Phase.idle.at other := by
    rintro other (⟨_, hph⟩ | ⟨_, hph⟩)
    · cases hph
    · cases hph
  cases h with
  | @begun j owner activity configured work hclaimed hbegun =>
    by_cases heq : i = j
    · subst heq
      rw [setCall_self] at hat
      rcases hat with ⟨_, hph⟩ | ⟨_, hph⟩
      · cases hph
        exact Or.inr (hinv.held_begun hclaimed hbegun)
      · cases hph
    · rw [setCall_ne heq] at hat
      exact Or.inl hat
  | unchanged => exact Or.inl hat
  | @recorded j model outcome reading reply configured work ledger result phase hcall _ hph =>
    refine Or.inl (hkept j phase ?_ hat)
    intro other ho
    rcases hph with rfl | ⟨note, -, rfl⟩
    · exact absurd ho (hidle other)
    · rcases ho with ⟨_, hsame⟩ | ⟨_, hsame⟩
      · cases hsame
      · cases hsame
        exact Or.inl ⟨configured, hcall⟩
  | stored _ _ => exact Or.inl (hkept _ _ (fun other ho => absurd ho (hidle other)) hat)
  | ended _ => exact Or.inl (hkept _ _ (fun other ho => absurd ho (hidle other)) hat)

theorem Called.ledgerInv {action : CallAction} (h : Called w now action w')
    (hinv : LedgerInv w.ledger) : LedgerInv w'.ledger := by
  cases h with
  | recorded _ hrec _ =>
    rcases recordEvidence_cases hrec with ⟨rfl, -⟩ | ⟨command, response, -, hcmd, -,
      hacc, -⟩
    · exact hinv
    · obtain ⟨hact, hatt⟩ := buildEvidenceCommand_ids hcmd
      rw [evidenceKey, ← hact, ← hatt] at hacc
      exact hinv.record hacc
  | begun _ _ => exact hinv
  | unchanged => exact hinv
  | stored _ _ => exact hinv
  | ended _ => exact hinv

theorem Called.reviews {action : CallAction} (h : Called w now action w') :
    w'.world.db.reviews = w.world.db.reviews ∨
      ∃ i begun draft rev, w.calls i = .reviewed begun draft ∧
        Stored w.world.db now begun.loaded.activity.ownerId begun.loaded.activity.id draft rev
          w'.world.db ∧ w'.world.db.reviews = w.world.db.reviews ++ [rev] := by
  cases h with
  | @stored i begun draft rev db hcall hstore =>
    have hsto := storeReview_ok hstore
    obtain ⟨loaded, moved, statuses, events, n, -, -, hdb, -⟩ := hsto.effect
    refine Or.inr ⟨i, begun, draft, rev, hcall, hsto, ?_⟩
    exact congrArg Db.reviews hdb
  | begun _ _ => exact Or.inl rfl
  | unchanged => exact Or.inl rfl
  | recorded _ _ _ => exact Or.inl rfl
  | ended _ => exact Or.inl rfl

theorem Stored.inReview {draft : ReviewDraft} {rev : ActivityReview} {db' : Db}
    (h : Stored db now ownerId activityId draft rev db')
    (hrev : InReview db ownerId activityId attemptId) : rev.attemptId = attemptId := by
  obtain ⟨loaded, _, _, _, _, hload, hatt, -⟩ := h.effect
  obtain ⟨current, hcur, -, hsame⟩ := hrev
  rw [hload] at hcur
  cases hcur
  rw [hatt, hsame]

theorem Called.inv {action : CallAction} (h : Called w now action w')
    (hclk : w.world.clock ≤ now) (hinv : ProcessInv w) : ProcessInv (w'.tick now) := by
  obtain ⟨done, hacts⟩ := h.acts hinv.world
  have hkept : ∀ {ownerId activityId attemptId}, InReview w.world.db ownerId activityId attemptId →
      InReview w'.world.db ownerId activityId attemptId :=
    fun hrev => (hacts.activityChange _ _).inReview hrev
  refine ⟨hacts.worldInv hclk hinv.world, h.ledgerInv hinv.ledger, ?_, ?_⟩
  · intro i begun hat
    rcases h.at hinv.world hat with hb | hheld
    · exact hkept (hinv.held i begun hb)
    · exact hkept hheld
  · intro rev hrev
    rcases h.reviews with hsame | ⟨i, begun, draft, stored, hcall, hsto, hrows⟩
    · rw [ProcessWorld.tick, hsame] at hrev
      exact hkept (hinv.reviews rev hrev)
    · rw [ProcessWorld.tick, hrows] at hrev
      rcases List.mem_append.mp hrev with hold | hnew
      · exact hkept (hinv.reviews rev hold)
      · rw [List.mem_singleton.mp hnew]
        have hheld := hinv.held i begun (Or.inr ⟨draft, hcall⟩)
        obtain ⟨hown, hact⟩ := Prod.mk.inj hsto.key
        rw [hown, hact, hsto.inReview hheld]
        exact hkept hheld

theorem ProcessStep.inv {e : ProcessEvent} (h : ProcessStep w e w') (hinv : ProcessInv w) :
    ProcessInv w' := by
  obtain ⟨hclk, after, hacts, rfl⟩ := h
  cases e with
  | mk now action =>
    cases hacts with
    | @outside action world ho hworld =>
      have hkept : ∀ {ownerId activityId attemptId},
          InReview w.world.db ownerId activityId attemptId →
          InReview world.db ownerId activityId attemptId :=
        fun hrev => (hworld.activityChange _ _).inReview hrev
      refine ⟨hworld.worldInv hclk hinv.world, hinv.ledger, ?_, ?_⟩
      · intro i begun hat
        exact hkept (hinv.held i begun hat)
      · intro rev hrev
        rw [ProcessWorld.tick, hworld.reviews ho] at hrev
        exact hkept (hinv.reviews rev hrev)
    | call hcall => exact (callAct_called hcall).inv hclk hinv

theorem processInv_initial (h : ProcessInitial w) : ProcessInv w where
  world := worldInv_initial h.world
  ledger := by
    have hnone : ∀ ownerId activityId attemptId,
        ¬HoldsEvidence w.ledger ownerId activityId attemptId := by
      intro ownerId activityId attemptId hholds
      simp [HoldsEvidence, evaluationsOf, eventsOf, h.evaluations, h.events] at hholds
    refine ⟨fun ownerId activityId attemptId _ => hnone ownerId activityId attemptId, ?_⟩
    intro ownerId activityId attemptId rcpt hrcpt
    simp [Ledger.receipt?, h.receipts] at hrcpt
  held := by
    intro i begun hat
    rw [h.idle i] at hat
    rcases hat with ⟨_, hph⟩ | ⟨_, hph⟩
    · cases hph
    · cases hph
  reviews := by
    intro rev hrev
    rw [h.reviews] at hrev
    cases hrev

end TamForge.Reviews
