import TamForge.Reviews.Proofs.Invariants

/-!
# Requests that stop between their transactions

A request moves the activity to `ai_processing` in one transaction and queues
the job in the next.  When every call reaches its second transaction, each
activity in `ai_processing` without a review has its job, or a call is about to
queue it.  A call that stops in between leaves an activity that no sweep will
ever find.
-/

namespace TamForge.Reviews

open Jobs Learning Models ProofSupport Today

variable {w w' : World} {e : Event} {now : Instant} {db db' : Db} {ownerId activityId : Nat}
  {attemptId i : Nat} {loaded : Loaded} {availableAt : Instant}

/-! ## The second transaction -/

theorem safeKey_reviewIdempotencyKey (hact : activityId ≤ bigintMax)
    (hatt : attemptId ≤ bigintMax) :
    safeKey (reviewIdempotencyKey activityId attemptId) = true := by
  have hdigits := Keys.all_toString (p := isKeyChar) fun _ => isKeyChar_of_isDigit
  have hfst := length_identity_le hact
  have hsec := length_identity_le hatt
  refine safeKey_of_chars 'c' ("laude-review-a".toList ++ (toString activityId).toList ++
    "-t".toList ++ (toString attemptId).toList) ?_ (by decide) ?_ ?_
  · have hchars : ∀ first second : String, ("claude-review-a" ++ first ++ "-t" ++ second).toList =
        'c' :: ("laude-review-a".toList ++ first.toList ++ "-t".toList ++ second.toList) := by
      intro first second
      have hhead : "claude-review-a".toList = 'c' :: "laude-review-a".toList := by decide
      simp only [String.toList_append, hhead, List.cons_append]
    exact hchars (toString activityId) (toString attemptId)
  · simp only [List.all_append, hdigits, Bool.and_true]
    decide
  · have hhead : "laude-review-a".toList.length = 14 := by decide
    have hmiddle : "-t".toList.length = 2 := by decide
    rw [List.length_append, List.length_append, List.length_append, hhead, hmiddle]
    omega

/-- The second transaction leaves a job under the key of its attempt, whether
it commits or raises. -/
theorem finishRequest_admits (hinv : WorldInv w)
    (hrev : InReview w.db ownerId loaded.activity.id loaded.attempt.id)
    (hident : w.db.queue.nextJobId ≤ bigintMax) (availableAt now : Instant) :
    let key := reviewIdempotencyKey loaded.activity.id loaded.attempt.id
    (∃ job db', finishRequest w.db availableAt now ownerId loaded = .ok (job, db') ∧
        (db'.queue.jobByKey? ownerId key).isSome) ∨
      (∃ error, finishRequest w.db availableAt now ownerId loaded = .error error ∧
        (w.db.queue.jobByKey? ownerId key).isSome) := by
  intro key
  obtain ⟨hown, hpos⟩ := hinv.owner hrev
  have hkey : safeKey key = true :=
    safeKey_reviewIdempotencyKey loaded.activity.id_le loaded.attempt.id_le
  have hpay : Notifications.validateReferencePayloadV1
      (reviewCommand loaded availableAt).payload.modelDump = true := by
    refine validateReferencePayloadV1_of_ids (some loaded.attempt.id)
      ⟨loaded.activity.id_pos, loaded.activity.id_le⟩ ?_
    rintro id ⟨⟩
    exact ⟨loaded.attempt.id_pos, loaded.attempt.id_le⟩
  rcases enqueue_admits hinv.queue hinv.outbox hown hpos hkey hpay now with
    ⟨result, queue, henq, hjob⟩ | ⟨error, henq, hjob | hrange⟩
  · refine Or.inl ⟨result.job, { w.db with queue := queue }, ?_, hjob⟩
    rw [finishRequest, henq]
  · refine Or.inr ⟨.job error, ?_, hjob⟩
    rw [finishRequest, henq]
  · exact absurd hident (not_le.mpr hrange)

/-! ## Coverage -/

def HasJob (db : Db) (ownerId activityId : Nat) : Prop :=
  ∃ loaded, db.load ownerId activityId = some loaded ∧
    (db.queue.jobByKey? ownerId (reviewIdempotencyKey activityId loaded.attempt.id)).isSome

/-- The activity is in `ai_processing` and has no review. -/
def AwaitsReview (db : Db) (ownerId activityId : Nat) : Prop :=
  (∃ activity, db.activity? ownerId activityId = some activity ∧
    activity.state = .aiProcessing) ∧ db.review? ownerId activityId = none

/-- Every activity that awaits a review has its job or a call about to queue it. -/
def Covered (w : World) : Prop :=
  ∀ ownerId activityId, AwaitsReview w.db ownerId activityId →
    HasJob w.db ownerId activityId ∨ Requesting w ownerId activityId

def CutOff (e : Transition World Event) : Prop :=
  ∃ i, ((e.before.tasks i).enqueueing).isSome ∧
    (e.label.action = .crash i ∨ ∃ availableAt, e.label.action = .second i availableAt ∧
      bigintMax < e.before.db.queue.nextJobId)

theorem HasJob.acts {action : Action} (h : HasJob w.db ownerId activityId)
    (hacts : Acts w now action w') (hinv : WorldInv w) (hclk : w.clock ≤ now)
    (hload : w'.db.load ownerId activityId = w.db.load ownerId activityId) :
    HasJob w'.db ownerId activityId := by
  obtain ⟨loaded, hloaded, hjob⟩ := h
  obtain ⟨old, hold⟩ := Option.isSome_iff_exists.mp hjob
  obtain ⟨new, hnew, -⟩ := (hacts.queued hclk).jobByKey? hinv hold
  exact ⟨loaded, hload.trans hloaded, Option.isSome_iff_exists.mpr ⟨new, hnew⟩⟩

theorem InReview.hasJob (h : InReview db ownerId activityId attemptId)
    (hjob : (db.queue.jobByKey? ownerId (reviewIdempotencyKey activityId attemptId)).isSome) :
    HasJob db ownerId activityId := by
  obtain ⟨current, hload, -, rfl⟩ := h
  exact ⟨current, hload, hjob⟩

theorem Acts.hasJob_second (h : Acts w now (.second i availableAt) w') (hinv : WorldInv w)
    (htask : (w.tasks i).enqueueing = some (ownerId, loaded))
    (hident : w.db.queue.nextJobId ≤ bigintMax) :
    HasJob w'.db ownerId loaded.activity.id := by
  have hrev := hinv.inFlight i ownerId loaded htask
  have ha := (h.activityChange ownerId loaded.activity.id).inReview hrev
  have hadms := finishRequest_admits hinv hrev hident availableAt now
  cases h with
  | secondDone hsame hfin =>
    rw [htask] at hsame
    cases hsame
    rcases hadms with ⟨job, db', hok, hjob⟩ | ⟨error, herr, -⟩
    · rw [hfin] at hok
      cases hok
      exact ha.hasJob hjob
    · rw [hfin] at herr
      cases herr
  | secondRaised hsame hraised =>
    rw [htask] at hsame
    cases hsame
    rcases hadms with ⟨job, db', hok, -⟩ | ⟨error, -, hjob⟩
    · rw [hraised] at hok
      cases hok
    · exact ha.hasJob hjob

theorem Step.covered (h : Step w e w') (hinv : WorldInv w) (hcovered : Covered w)
    (hgoes : ¬CutOff ⟨w, e, w'⟩) : Covered w' := by
  obtain ⟨hclk, -, after, hacts, rfl⟩ := h
  intro ownerId activityId hawaits
  obtain ⟨⟨act, hact, hst⟩, hrev⟩ := hawaits
  cases hacts.activityChange ownerId activityId with
  | kept hsame hload hunrev =>
    have hb : AwaitsReview w.db ownerId activityId :=
      ⟨⟨act, hsame.symm.trans hact, hst⟩, hunrev.symm.trans hrev⟩
    rcases hcovered ownerId activityId hb with hjob | ⟨i, loaded, htask, rfl⟩
    · have hkept : HasJob after.db ownerId activityId := hjob.acts hacts hinv hclk hload
      exact Or.inl hkept
    · have hbusy : ((w.tasks i).enqueueing).isSome := by simp [htask]
      rcases hacts.enqueueing_kept htask with hkept | hcrash | ⟨availableAt, hsec⟩
      · exact Or.inr ⟨i, loaded, hkept, rfl⟩
      · exact absurd ⟨i, hbusy, Or.inl hcrash⟩ hgoes
      · have hident : w.db.queue.nextJobId ≤ bigintMax := by
          by_contra hrange
          exact hgoes ⟨i, hbusy, Or.inr ⟨availableAt, hsec, not_le.mp hrange⟩⟩
        rw [hsec] at hacts
        have hqueued : HasJob after.db ownerId loaded.activity.id :=
          hacts.hasJob_second hinv htask hident
        exact Or.inl hqueued
  | began hrequesting => exact Or.inr hrequesting
  | stored _ hsto _ =>
    rw [hrev] at hsto
    cases hsto
  | learned _ _ ha =>
    have hnot := ha act hact
    rw [hst] at hnot
    cases hnot

theorem RequestRun.covered {start : World} {trace : List (Transition World Event)}
    (hrun : RequestRun start trace w) (hgoes : ∀ e ∈ trace, ¬CutOff e) : Covered w := by
  have hstart : Covered start := by
    rintro ownerId activityId ⟨⟨act, hact, hst⟩, -⟩
    exact absurd hst (hrun.1.unprocessed act (Table.mem_of_lookup hact))
  have key : WorldInv w ∧ ((∀ e ∈ trace, ¬CutOff e) → Covered w) := by
    refine hrun.2.invariant (I := fun trace w =>
      WorldInv w ∧ ((∀ e ∈ trace, ¬CutOff e) → Covered w))
      ⟨worldInv_initial hrun.1, fun _ => hstart⟩ ?_
    rintro trace s a t ⟨hinv, hcovered⟩ hstep
    refine ⟨hstep.worldInv hinv, ?_⟩
    intro hall
    have hearl := hcovered fun e he => hall e (List.mem_append_left _ he)
    exact hstep.covered hinv hearl (hall ⟨s, a, t⟩ (by simp))
  exact key.2 hgoes

theorem exists_second (htask : (w.tasks i).enqueueing = some (ownerId, loaded))
    (hclk : w.clock ≤ now) (availableAt : Instant) :
    ∃ after, Acts w now (.second i availableAt) after ∧
      Step w ⟨now, .second i availableAt⟩ { after with clock := now } := by
  cases hfin : finishRequest w.db availableAt now ownerId loaded with
  | error error =>
    have hacts := Acts.secondRaised htask hfin
    exact ⟨_, hacts, hclk, rfl, _, hacts, rfl⟩
  | ok result =>
    have hacts := Acts.secondDone htask hfin
    exact ⟨_, hacts, hclk, rfl, _, hacts, rfl⟩

/-- When no call stops between its two transactions, every activity in
`ai_processing` without a review has a job under its key, or a call in progress
whose second transaction leaves it one. -/
theorem no_review_lost {start : World} {trace : List (Transition World Event)}
    (hrun : RequestRun start trace w) (hgoes : ∀ e ∈ trace, ¬CutOff e)
    (hawaits : AwaitsReview w.db ownerId activityId) :
    HasJob w.db ownerId activityId ∨
      ∃ i, ∀ now availableAt, w.clock ≤ now → w.db.queue.nextJobId ≤ bigintMax →
        ∃ w', Step w ⟨now, .second i availableAt⟩ w' ∧ HasJob w'.db ownerId activityId := by
  rcases hrun.covered hgoes ownerId activityId hawaits with hjob | ⟨i, loaded, htask, rfl⟩
  · exact Or.inl hjob
  · refine Or.inr ⟨i, ?_⟩
    intro now availableAt hclock hidentity
    obtain ⟨after, hacts, hstep⟩ := exists_second htask hclock availableAt
    have hjob : HasJob after.db ownerId loaded.activity.id :=
      hacts.hasJob_second hrun.worldInv htask hidentity
    exact ⟨{ after with clock := now }, hstep, hjob⟩

/-- The sample request, carried through, has its job. -/
theorem no_review_lost_sample :
    AwaitsReview sampleRequested.db 1 7 ∧
      (HasJob sampleRequested.db 1 7 ∨
        ∃ i, ∀ now availableAt, sampleRequested.clock ≤ now →
          sampleRequested.db.queue.nextJobId ≤ bigintMax →
          ∃ w', Step sampleRequested ⟨now, .second i availableAt⟩ w' ∧ HasJob w'.db 1 7) := by
  have hawaits : AwaitsReview sampleRequested.db 1 7 := ⟨⟨_, rfl, rfl⟩, rfl⟩
  refine ⟨hawaits, no_review_lost requestRun_sampleRequested ?_ hawaits⟩
  rintro e he ⟨i, -, hcut⟩
  simp only [sampleTrace, List.cons_append, List.nil_append, List.mem_cons, List.not_mem_nil,
    or_false] at he
  rcases he with rfl | rfl | rfl
  · simp at hcut
  · simp at hcut
  · simp only [reduceCtorEq, false_or] at hcut
    obtain ⟨-, -, hrange⟩ := hcut
    exact absurd hrange (by decide)

/-! ## The sweep never finds it again -/

theorem mem_pendingRows {limit : Nat} (h : (ownerId, activityId) ∈ pendingRows db limit) :
    ∃ act ∈ db.activities, activityKey act = (ownerId, activityId) ∧
      act.state = .selfReviewComplete := by
  have hrow := (List.mem_insertionSort _).mp (List.mem_of_mem_take h)
  obtain ⟨act, hact, hatt⟩ := List.mem_flatMap.mp hrow
  obtain ⟨att, -, hkey⟩ := List.mem_map.mp hatt
  obtain ⟨hmem, hst⟩ := List.mem_filter.mp hact
  exact ⟨act, hmem, hkey, of_decide_eq_true hst⟩

theorem InReview.not_pending (h : InReview w.db ownerId activityId attemptId)
    (hinv : WorldInv w) (limit : Nat) : (ownerId, activityId) ∉ pendingRows w.db limit := by
  intro hpend
  obtain ⟨activity, hmem, hkey, hst⟩ := mem_pendingRows hpend
  obtain ⟨current, hload, hreached, -⟩ := h
  have hlook := Table.lookup_of_mem hinv.keyed hmem
  rw [hkey] at hlook
  have hsame : current.activity = activity :=
    Option.some.inj ((load_activity hload).symm.trans hlook)
  rw [hsame, hst] at hreached
  cases hreached

theorem InReview.never_pending (h : InReview w.db ownerId activityId attemptId)
    (hinv : WorldInv w) {later : List (Transition World Event)} (hrun : Run Step w later w')
    (limit : Nat) : (ownerId, activityId) ∉ pendingRows w'.db limit := by
  have key : WorldInv w' ∧ InReview w'.db ownerId activityId attemptId := by
    refine hrun.state_invariant
      (I := fun w => WorldInv w ∧ InReview w.db ownerId activityId attemptId) ⟨hinv, h⟩ ?_
    rintro s a t ⟨hs, hrev⟩ hstep
    refine ⟨hstep.worldInv hs, ?_⟩
    obtain ⟨-, -, after, hacts, rfl⟩ := hstep
    exact (hacts.activityChange ownerId activityId).inReview hrev
  exact key.2.not_pending key.1 limit

def sampleLost : World := { sampleBetween with clock := 40 }.setTask 0 .idle

/-- A call that stops there loses the review: the activity is in
`ai_processing` without a review, a job or a call in progress, and no later
sweep selects it. -/
theorem review_lost_after_crash :
    ∃ trace, RequestRun sampleStart trace sampleLost ∧ AwaitsReview sampleLost.db 1 7 ∧
      ¬HasJob sampleLost.db 1 7 ∧ ¬Requesting sampleLost 1 7 ∧
      ∀ later w', Run Step sampleLost later w' →
        ∀ limit, (1, 7) ∉ pendingRows w'.db limit := by
  obtain ⟨hinitial, hbefore⟩ := requestRun_sampleTrace
  have hcrash : Step sampleBetween ⟨40, .crash 0⟩ sampleLost := ⟨by decide, rfl, _, .crash, rfl⟩
  have hrun : RequestRun sampleStart (sampleTrace ++ [⟨sampleBetween, ⟨40, .crash 0⟩, sampleLost⟩])
      sampleLost := ⟨hinitial, hbefore.append (Run.single hcrash)⟩
  have hreview : InReview sampleLost.db 1 7 3 := ⟨_, rfl, rfl, rfl⟩
  refine ⟨_, hrun, ⟨⟨_, rfl, rfl⟩, rfl⟩, ?_, ?_, ?_⟩
  · rintro ⟨loaded, -, hjob⟩
    cases hjob
  · rintro ⟨i, loaded, htask, -⟩
    by_cases hi : i = 0
    · rw [hi] at htask
      cases htask
    · simp [sampleLost, sampleBetween, sampleSwept, sampleStart, World.setTask, hi,
        Task.idle] at htask
  · intro later w' hlater limit
    exact hreview.never_pending hrun.worldInv hlater limit

end TamForge.Reviews
