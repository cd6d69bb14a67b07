import TamForge.Reviews.Proofs.NoReviewLost

/-!
# Requesting a review again

A request that finds the activity in `ai_processing` goes on to enqueue, with a
command whose `available_at` is the clock's reading.  The queue compares that
column too, so the request replays exactly when the reading is the instant at
which the job is available; at any other it is refused as a conflict.
-/

namespace TamForge.Reviews

open Jobs Learning Models Notifications
open ProofSupport Today

variable {w w' : World} {now : Instant} {db db' : Db} {ownerId activityId attemptId : Nat}
  {loaded : Loaded} {availableAt : Instant} {job : BackgroundJob}

/-! ## The job of an earlier request -/

def HasReviewJob (db : Db) (ownerId activityId attemptId : Nat) : Prop :=
  InReview db ownerId activityId attemptId ∧
    ∃ job, db.queue.jobByKey? ownerId (reviewIdempotencyKey activityId attemptId) = some job ∧
      job.kind = reviewJobKind ∧ job.payload.subjectId = activityId

def Requested (ownerId activityId : Nat) (e : Transition World Event) : Prop :=
  ∃ i availableAt loaded job db, e.label.action = .second i availableAt ∧
    (e.before.tasks i).enqueueing = some (ownerId, loaded) ∧ loaded.activity.id = activityId ∧
    finishRequest e.before.db availableAt e.label.now ownerId loaded = .ok (job, db)

theorem finishRequest_job {res : JobResponse}
    (h : finishRequest db availableAt now ownerId loaded = .ok (res, db')) :
    ∃ job, db'.queue.jobByKey? ownerId
        (reviewIdempotencyKey loaded.activity.id loaded.attempt.id) = some job ∧
      job.kind = reviewJobKind ∧ job.payload.subjectId = loaded.activity.id := by
  obtain ⟨enqueued, queue, henq, -, rfl⟩ := finishRequest_ok h
  obtain ⟨-, ⟨job, hjob, hsame, -, rfl⟩ | ⟨hfree, -, -, job, rfl, -, rfl⟩⟩ :=
    enqueue_ok (JobService.enqueue_ok henq)
  · simp only [sameEnqueue, Bool.and_eq_true, beq_iff_eq] at hsame
    obtain ⟨⟨⟨⟨hkind, hpay⟩, -⟩, -⟩, -⟩ := hsame
    exact ⟨job, hjob, hkind, by rw [hpay]; rfl⟩
  · exact ⟨_, jobByKey?_append_self (newJob db.queue.nextJobId ownerId
      (reviewCommand loaded availableAt)
      (reviewIdempotencyKey loaded.activity.id loaded.attempt.id) now) hfree, rfl, rfl⟩

theorem Acts.hasReviewJob {action : Action} (h : Acts w now action w') (hclk : w.clock ≤ now)
    (hinv : WorldInv w) (hjob : HasReviewJob w.db ownerId activityId attemptId) :
    HasReviewJob w'.db ownerId activityId attemptId := by
  obtain ⟨hrev, old, hold, hkind, hsubj⟩ := hjob
  obtain ⟨new, hnew, hsame⟩ := (h.queued hclk).jobByKey? hinv hold
  have hkindNew : new.kind = old.kind := congrArg (fun columns => columns.2.1) hsame
  have hpay : new.payload = old.payload := congrArg (fun columns => columns.2.2.1) hsame
  exact ⟨(h.activityChange ownerId activityId).inReview hrev, new, hnew, hkindNew.trans hkind,
    by rw [hpay, hsubj]⟩

theorem RequestRun.hasReviewJob {start : World} {trace : List (Transition World Event)}
    {e : Transition World Event} (hrun : RequestRun start trace w) (he : e ∈ trace)
    (hrequested : Requested ownerId activityId e) :
    ∃ attemptId, HasReviewJob w.db ownerId activityId attemptId := by
  obtain ⟨before, later, -, hb, hstep, hlat⟩ := hrun.2.split he
  obtain ⟨i, availableAt, loaded, result, db, hact, htask, rfl, hfin⟩ := hrequested
  have hinv : WorldInv e.before := RequestRun.worldInv ⟨hrun.1, hb⟩
  have hrev := hinv.inFlight i ownerId loaded htask
  have ha : HasReviewJob e.after.db ownerId loaded.activity.id loaded.attempt.id := by
    obtain ⟨hclk, -, after, hacts, hworld⟩ := hstep
    have hkept := (hacts.activityChange ownerId loaded.activity.id).inReview hrev
    rw [hact] at hacts
    rw [hworld]
    refine ⟨hkept, ?_⟩
    cases hacts with
    | secondDone htask' hfin' =>
      rw [htask] at htask'
      cases htask'
      exact finishRequest_job hfin'
    | secondRaised htask' hraised =>
      rw [htask] at htask'
      cases htask'
      rw [hfin] at hraised
      cases hraised
  have key : WorldInv w ∧ HasReviewJob w.db ownerId loaded.activity.id loaded.attempt.id := by
    refine hlat.state_invariant (I := fun w => WorldInv w ∧
      HasReviewJob w.db ownerId loaded.activity.id loaded.attempt.id)
      ⟨hstep.worldInv hinv, ha⟩ ?_
    rintro s a t ⟨hs, hjob⟩ hnext
    refine ⟨hnext.worldInv hs, ?_⟩
    obtain ⟨hclk, -, after, hacts, rfl⟩ := hnext
    have hkept : HasReviewJob after.db ownerId loaded.activity.id loaded.attempt.id :=
      hacts.hasReviewJob hclk hs hjob
    exact hkept
  exact ⟨loaded.attempt.id, key.2⟩

theorem InReview.unique {other : Nat} (h : InReview db ownerId activityId attemptId)
    (ho : InReview db ownerId activityId other) : other = attemptId := by
  obtain ⟨current, hload, -, rfl⟩ := h
  obtain ⟨current', hload', -, rfl⟩ := ho
  rw [hload] at hload'
  cases hload'
  rfl

/-- The job that `read` reports is the one under the key. -/
theorem WorldInv.reviewJob? (hinv : WorldInv w)
    (hrev : InReview w.db ownerId activityId attemptId)
    (hjob : w.db.queue.jobByKey? ownerId (reviewIdempotencyKey activityId attemptId) = some job)
    (hkind : job.kind = reviewJobKind) (hsubj : job.payload.subjectId = activityId) :
    reviewJob? w.db.queue ownerId activityId = some job := by
  rw [jobByKey?_eq_lookup] at hjob
  have hmem := Table.mem_of_lookup hjob
  have hcols := Table.key_of_lookup hjob
  apply Table.latest_of_unique
  · exact List.mem_filter.mpr ⟨hmem, by simp [(Prod.mk.inj hcols).1, hkind, hsubj]⟩
  · intro other ho
    obtain ⟨hotherMem, hsel⟩ := List.mem_filter.mp ho
    obtain ⟨hown, hkind', hsubj'⟩ := of_decide_eq_true hsel
    obtain ⟨attemptId', hrev', hkey, -⟩ := hinv.jobs other hotherMem hkind'
    rw [hown, hsubj'] at hrev'
    have hatt : attemptId' = attemptId := hrev.unique hrev'
    have hotherCols : (other.ownerId, other.idempotencyKey) =
        (ownerId, reviewIdempotencyKey activityId attemptId) := by
      rw [hown, hkey, hsubj', hatt]
    have hlook := Table.lookup_of_mem hinv.queue.keys hotherMem
    rw [hotherCols, hjob] at hlook
    exact (Option.some.inj hlook).symm

theorem WorldInv.sameEnqueue_iff (hinv : WorldInv w)
    (hjob : w.db.queue.jobByKey? ownerId (reviewIdempotencyKey activityId attemptId) = some job)
    (hkind : job.kind = reviewJobKind) (hsubj : job.payload.subjectId = activityId)
    (loaded : Loaded) (hload : w.db.load ownerId activityId = some loaded)
    (availableAt : Instant) :
    sameEnqueue job (reviewCommand loaded availableAt)
        (reviewCommand loaded availableAt).payload.modelDump = true ↔
      availableAt = job.availableAt := by
  rw [jobByKey?_eq_lookup] at hjob
  have hcols := Table.key_of_lookup hjob
  obtain ⟨attemptId', hrev', -, hpay, hprio, hmax⟩ :=
    hinv.jobs job (Table.mem_of_lookup hjob) hkind
  rw [(Prod.mk.inj hcols).1, hsubj] at hrev'
  obtain ⟨current, hcur, -, hatt⟩ := hrev'
  rw [hload] at hcur
  cases hcur
  have hdump : job.payload = (reviewCommand loaded availableAt).payload.modelDump := by
    rw [hpay, hsubj, ← hatt, ← (load_key hload).2]
    rfl
  rw [Jobs.sameEnqueue_iff hkind hdump hprio hmax]
  constructor
  · intro hcmd
    exact congrArg EnqueueJobCommand.availableAt hcmd
  · intro havail
    rw [← havail]
    rfl

/-! ## The second request -/

theorem beginRequest_processing (hload : db.load ownerId activityId = some loaded)
    (hstate : loaded.activity.state = .aiProcessing)
    (hrev : db.review? ownerId activityId = none) {clock : Instant}
    (hsts : ∀ status ∈ db.statuses, StatusInv clock status) (hclk : clock ≤ now) :
    ∃ statuses, beginRequest db now ownerId activityId true =
      .ok (some loaded, { db with statuses := statuses }) := by
  have hok : ProcessingState.analyzing ≠ .needsAttention := by decide
  obtain ⟨after, hst⟩ := setStatus_accepts hok hsts hclk ownerId activityId
  obtain ⟨statuses, rfl, -⟩ := setStatus_ok hst
  refine ⟨statuses, ?_⟩
  simp only [beginRequest, hload, hrev, hstate, Option.isSome_none, Bool.false_eq_true,
    if_false, ne_eq, not_true_eq_false, and_false, reduceCtorEq, Bool.true_eq_false]
  exact bind_ok_iff.mpr ⟨db, rfl, bind_ok_iff.mpr ⟨_, hst, rfl⟩⟩

theorem finishRequest_existing (hown : ownerId ∈ db.queue.owners) (hpos : 0 < ownerId)
    (hjob : db.queue.jobByKey? ownerId
      (reviewIdempotencyKey loaded.activity.id loaded.attempt.id) = some job)
    (availableAt now : Instant) :
    finishRequest db availableAt now ownerId loaded =
      if sameEnqueue job (reviewCommand loaded availableAt)
          (reviewCommand loaded availableAt).payload.modelDump then
        .ok (Jobs.response job, db)
      else
        .error (.job (.conflict "Idempotency-Key was reused for another job")) := by
  have hkey := safeKey_reviewIdempotencyKey loaded.activity.id_le loaded.attempt.id_le
  have hnonzero : ownerId ≠ 0 := by omega
  simp only [finishRequest, JobService.enqueue, hnonzero, if_false, hkey, Bool.true_eq_false,
    enqueue, hown, not_true_eq_false, hjob]
  by_cases hsame : sameEnqueue job (reviewCommand loaded availableAt)
      (reviewCommand loaded availableAt).payload.modelDump = true
  · rw [if_pos hsame, if_pos hsame]
    rfl
  · rw [if_neg hsame, if_neg hsame]
    rfl

def ReplaysRequest (db : Db) (readings : Readings) (ownerId activityId : Nat)
    (job : BackgroundJob) : Prop :=
  (request db readings ownerId activityId).1 = .ok (jobResponse activityId (some job)) ∧
    (request db readings ownerId activityId).2.queue = db.queue

theorem requested_sample :
    Requested 1 7 ⟨sampleBetween, ⟨40, .second 0 40⟩, sampleRequested⟩ :=
  ⟨0, 40, sampleLoaded, _, _, rfl, rfl, rfl, finishRequest_sample⟩

end TamForge.Reviews
