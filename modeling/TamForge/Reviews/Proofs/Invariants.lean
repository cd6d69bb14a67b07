import TamForge.Jobs.Proofs.Leases
import TamForge.Reviews.Proofs.Transactions
import TamForge.Reviews.Requests

/-!
# The invariant of review requests

`ActivityChange` lists everything one action can do to one activity, and
`Acts.queued` what it does to the queue.  From these follows what every
reachable world keeps: the queue's own invariants, and that calls in progress
and review jobs belong to activities that have reached the reviewer.
-/

namespace TamForge.Reviews

open Jobs Learning Models Notifications
open ProofSupport Today

variable {w w' : World} {e : Event} {action : Action} {now : Instant} {db db' : Db}
  {ownerId activityId attemptId i : Nat} {loaded : Loaded}

/-! ## One activity -/

def Requesting (w : World) (ownerId activityId : Nat) : Prop :=
  ∃ i loaded, (w.tasks i).enqueueing = some (ownerId, loaded) ∧ loaded.activity.id = activityId

/-- What an action does to an activity, with the guard under which it does it.
`requesting` is what holds of the calls when the activity begins its review. -/
inductive ActivityChange (requesting : Prop) (db db' : Db) (ownerId activityId : Nat) : Prop
  | kept : db'.activity? ownerId activityId = db.activity? ownerId activityId →
      db'.load ownerId activityId = db.load ownerId activityId →
      db'.review? ownerId activityId = db.review? ownerId activityId →
      ActivityChange requesting db db' ownerId activityId
  | began {loaded : Loaded} {decision : TransitionDecision} : requesting →
      db.load ownerId activityId = some loaded →
      loaded.activity.state = .selfReviewComplete → decision.state = .aiProcessing →
      db'.load ownerId activityId =
        some (loaded.setActivity (decided decision loaded.activity)) →
      db'.review? ownerId activityId = db.review? ownerId activityId →
      ActivityChange requesting db db' ownerId activityId
  | stored {loaded : Loaded} {review : ActivityReview} :
      db.load ownerId activityId = some loaded →
      db'.review? ownerId activityId = some review →
      (db'.load ownerId activityId = some loaded ∨
        ∃ decision, decision.state = .feedbackReady ∧ db'.load ownerId activityId =
          some (loaded.setActivity (decided decision loaded.activity))) →
      ActivityChange requesting db db' ownerId activityId
  | learned : db'.review? ownerId activityId = db.review? ownerId activityId →
      (∀ activity, db.activity? ownerId activityId = some activity →
        reachedReviewer activity.state = false) →
      (∀ activity, db'.activity? ownerId activityId = some activity →
        reachedReviewer activity.state = false) →
      ActivityChange requesting db db' ownerId activityId

variable {requesting : Prop}

theorem ActivityChange.refl : ActivityChange requesting db db ownerId activityId :=
  .kept rfl rfl rfl

theorem Began.activityChange {owner subject : Nat} (h : Began db now owner subject loaded db')
    (hrequesting : (ownerId, activityId) = (owner, subject) → requesting) :
    ActivityChange requesting db db' ownerId activityId := by
  obtain ⟨moved, statuses, rfl, -, ⟨-, rfl⟩ | ⟨hcompl, decision, htgt, rfl⟩⟩ := h.effect
  · exact .kept rfl rfl rfl
  · by_cases hkey : (ownerId, activityId) = activityKey loaded.activity
    · obtain ⟨hown, hsubj⟩ := load_key h.load
      obtain ⟨rfl, rfl⟩ := Prod.mk.inj (hkey.trans (Prod.ext hown hsubj))
      exact .began (hrequesting rfl) h.load hcompl htgt (load_updateActivity_self h.load) rfl
    · exact .kept (activity?_updateActivity_ne hkey) (load_updateActivity_ne hkey) rfl

theorem Stored.activityChange {owner subject : Nat} {draft : ReviewDraft}
    {review : ActivityReview} (h : Stored db now owner subject draft review db')
    (ownerId activityId : Nat) : ActivityChange requesting db db' ownerId activityId := by
  obtain ⟨loaded, moved, statuses, events, n, hload, -, rfl, -, hmov⟩ := h.effect
  by_cases hkey : (ownerId, activityId) = (owner, subject)
  · obtain ⟨rfl, rfl⟩ := Prod.mk.inj hkey
    have hfree : Table.lookup reviewKey db.reviews (reviewKey review) = none := by
      rw [h.key]
      exact h.unreviewed
    have hf : Table.lookup reviewKey (db.reviews ++ [review]) (ownerId, activityId) =
        some review := by
      rw [← h.key]
      exact Table.lookup_append_self hfree
    refine .stored hload hf ?_
    rcases hmov with rfl | ⟨decision, htgt, rfl⟩
    · exact Or.inl hload
    · exact Or.inr ⟨decision, htgt, load_updateActivity_self hload⟩
  · have hrev : reviewKey review ≠ (ownerId, activityId) := by
      rw [h.key]
      exact fun heq => hkey heq.symm
    have ho : (ownerId, activityId) ≠ activityKey loaded.activity := by
      obtain ⟨hown, hsubj⟩ := load_key hload
      intro heq
      exact hkey (heq.trans (Prod.ext hown hsubj))
    rcases hmov with rfl | ⟨decision, -, rfl⟩
    · exact .kept rfl rfl (Table.lookup_append_ne hrev)
    · exact .kept (activity?_updateActivity_ne ho) (load_updateActivity_ne ho)
        (Table.lookup_append_ne hrev)

theorem Learns.activityChange (h : Learns db db') (ownerId activityId : Nat) :
    ActivityChange requesting db db' ownerId activityId := by
  have hrev : db'.review? ownerId activityId = db.review? ownerId activityId := by
    rw [Db.review?, Db.review?, h.reviews]
  by_cases hreached : ∃ act, db.activity? ownerId activityId = some act ∧
      reachedReviewer act.state = true
  · obtain ⟨act, hact, hst⟩ := hreached
    obtain ⟨hkept, hload⟩ := h.kept _ _ _ hact hst
    exact .kept (hkept.trans hact.symm) hload hrev
  · refine .learned hrev ?_ ?_
    · intro act hact
      rw [← Bool.not_eq_true]
      exact fun hst => hreached ⟨act, hact, hst⟩
    · intro act hact
      rw [← Bool.not_eq_true]
      exact fun hst => hreached ⟨act, h.entered _ _ _ hact hst, hst⟩

theorem finishRequest_ok {availableAt : Instant} {job : JobResponse}
    (h : finishRequest db availableAt now ownerId loaded = .ok (job, db')) :
    ∃ res queue, JobService.enqueue db.queue now ownerId (reviewCommand loaded availableAt)
        (reviewIdempotencyKey loaded.activity.id loaded.attempt.id) = .ok (res, queue) ∧
      job = res.job ∧ db' = { db with queue := queue } := by
  unfold finishRequest at h
  split at h
  · cases h
  · rename_i res queue henq
    cases h
    exact ⟨res, queue, henq, rfl, rfl⟩

@[simp] theorem setTask_self (w : World) (i : Nat) (task : Task) :
    (w.setTask i task).tasks i = task := by
  simp [World.setTask]

theorem setTask_ne {j : Nat} (hne : j ≠ i) (task : Task) :
    (w.setTask i task).tasks j = w.tasks j := by
  simp [World.setTask, hne]

theorem Acts.activityChange (h : Acts w now action w') (ownerId activityId : Nat) :
    ActivityChange (Requesting w' ownerId activityId) w.db w'.db ownerId activityId := by
  cases h with
  | request _ => exact .refl
  | sweep _ => exact .refl
  | @firstDone i owner subject rest found _ _ _ hbegin =>
    rcases beginRequest_ok hbegin with ⟨-, -, rfl⟩ | ⟨loaded, rfl, hbegan⟩
    · exact .refl
    · refine hbegan.activityChange ?_
      rintro ⟨⟩
      exact ⟨i, loaded, by rw [setTask_self]; rfl, (load_key hbegan.load).2⟩
  | firstRaised _ _ _ => exact .refl
  | secondDone _ hfin =>
    obtain ⟨res, queue, -, -, rfl⟩ := finishRequest_ok hfin
    exact .kept rfl rfl rfl
  | secondRaised _ _ => exact .refl
  | crash => exact .refl
  | store hstore => exact (storeReview_ok hstore).activityChange ownerId activityId
  | queue _ _ => exact .kept rfl rfl rfl
  | learn hlearns => exact hlearns.activityChange ownerId activityId

/-! ## Activities in review -/

def InReview (db : Db) (ownerId activityId attemptId : Nat) : Prop :=
  ∃ current, db.load ownerId activityId = some current ∧
    reachedReviewer current.activity.state = true ∧ current.attempt.id = attemptId

theorem ActivityChange.inReview (h : ActivityChange requesting db db' ownerId activityId)
    (hrev : InReview db ownerId activityId attemptId) :
    InReview db' ownerId activityId attemptId := by
  obtain ⟨current, hload, hreached, hatt⟩ := hrev
  cases h with
  | kept _ hsame _ => exact ⟨current, hsame.trans hload, hreached, hatt⟩
  | began _ hb hcompl =>
    rw [hload] at hb
    cases hb
    rw [hcompl] at hreached
    cases hreached
  | stored hb _ ha =>
    rw [hload] at hb
    cases hb
    rcases ha with ha | ⟨decision, htgt, ha⟩
    · exact ⟨current, ha, hreached, hatt⟩
    · refine ⟨_, ha, ?_, hatt⟩
      have hst : (current.setActivity (decided decision current.activity)).activity.state =
          decision.state := rfl
      rw [hst, htgt]
      rfl
  | learned _ hb _ =>
    rw [hb current.activity (load_activity hload)] at hreached
    cases hreached

theorem Began.inReview (h : Began db now ownerId activityId loaded db') :
    loaded.activity.id = activityId ∧ InReview db' ownerId activityId loaded.attempt.id := by
  refine ⟨(load_key h.load).2, ?_⟩
  obtain ⟨moved, statuses, rfl, -, ⟨hst, rfl⟩ | ⟨-, decision, htgt, rfl⟩⟩ := h.effect
  · refine ⟨loaded, h.load, ?_, rfl⟩
    rw [hst]
    rfl
  · refine ⟨_, load_updateActivity_self h.load, ?_, rfl⟩
    have hst : (loaded.setActivity (decided decision loaded.activity)).activity.state =
        decision.state := rfl
    rw [hst, htgt]
    rfl

/-! ## The queue -/

/-- What an action does to the queue: nothing but drawing an event identity, or
one call.  A call that enqueues a review comes from a call in progress. -/
inductive Queued (w : World) (now : Instant) (queue : Jobs.Store) : Prop
  | drawn {n : Nat} : queue = { w.db.queue with nextEventId := n } → Queued w now queue
  | called (call : Call) : call.now = now →
      Jobs.Step ⟨w.db.queue, w.clock⟩ call ⟨queue, now⟩ →
      (∀ ownerId command key, call.command = .enqueue ownerId command key →
        command.kind = reviewJobKind →
        ∃ i loaded availableAt, (w.tasks i).enqueueing = some (ownerId, loaded) ∧
          command = reviewCommand loaded availableAt ∧
          key = reviewIdempotencyKey loaded.activity.id loaded.attempt.id) →
      Queued w now queue

theorem Queued.refl (w : World) (now : Instant) : Queued w now w.db.queue :=
  .drawn (n := w.db.queue.nextEventId) rfl

theorem Acts.queued (h : Acts w now action w') (hclk : w.clock ≤ now) :
    Queued w now w'.db.queue := by
  cases h with
  | request _ => exact .refl w now
  | sweep _ => exact .refl w now
  | firstDone _ _ hbegin =>
    rcases beginRequest_ok hbegin with ⟨-, -, rfl⟩ | ⟨loaded, -, hbegan⟩
    · exact .refl w now
    · obtain ⟨moved, statuses, rfl, -, ⟨-, rfl⟩ | ⟨-, decision, -, rfl⟩⟩ := hbegan.effect
      · exact .refl w now
      · exact .refl w now
  | firstRaised _ _ _ => exact .refl w now
  | @secondDone i owner availableAt loaded _ _ htask hfin =>
    obtain ⟨res, queue, henq, -, rfl⟩ := finishRequest_ok hfin
    have hexec : exec w.db.queue now (.enqueue owner (reviewCommand loaded availableAt)
        (reviewIdempotencyKey loaded.activity.id loaded.attempt.id)) =
          (.enqueued res, queue) := by
      rw [exec, JobService.enqueue_ok henq]
      rfl
    refine .called ⟨now, .enqueue owner (reviewCommand loaded availableAt)
      (reviewIdempotencyKey loaded.activity.id loaded.attempt.id), .enqueued res⟩ rfl
      ⟨hclk, rfl, Or.inl hexec⟩ ?_
    rintro ownerId cmd key hcmd -
    cases hcmd
    exact ⟨i, loaded, availableAt, htask, rfl, rfl⟩
  | secondRaised _ _ => exact .refl w now
  | crash => exact .refl w now
  | store hstore =>
    obtain ⟨loaded, moved, statuses, events, n, -, -, rfl, -, -⟩ := (storeReview_ok hstore).effect
    exact .drawn rfl
  | @queue cmd outcome _ hkind hexec =>
    refine .called ⟨now, cmd, outcome⟩ rfl ⟨hclk, rfl, Or.inl hexec⟩ ?_
    intro ownerId enqueued key hcmd hrev
    exact absurd hrev (hkind ownerId enqueued key hcmd)
  | learn hlearns =>
    rw [hlearns.queue]
    exact .refl w now

/-! ## Calls in progress -/

theorem Acts.enqueueing (h : Acts w now action w')
    (htask : (w'.tasks i).enqueueing = some (ownerId, loaded)) :
    (w.tasks i).enqueueing = some (ownerId, loaded) ∨
      Began w.db now ownerId loaded.activity.id loaded w'.db := by
  -- of the call whose task an action replaces, only `firstDone` leaves one in progress
  have ho : ∀ {before : World} {k : Nat} {task : Task}, before.tasks = w.tasks →
      task.enqueueing = none → w'.tasks = (before.setTask k task).tasks →
      (w.tasks i).enqueueing = some (ownerId, loaded) := by
    intro before k task hb hnone ha
    rw [ha] at htask
    by_cases hk : i = k
    · rw [hk, setTask_self, hnone] at htask
      cases htask
    · rw [setTask_ne hk, hb] at htask
      exact htask
  cases h with
  | request _ => exact Or.inl (ho rfl rfl rfl)
  | sweep _ => exact Or.inl (ho rfl rfl rfl)
  | @firstDone k owner subject rest found _ _ _ hbegin =>
    by_cases hk : i = k
    · rw [hk, setTask_self] at htask
      rcases beginRequest_ok hbegin with ⟨rfl, -, -⟩ | ⟨begun, rfl, hbegan⟩
      · cases htask
      · cases htask
        rw [(load_key hbegan.load).2]
        exact Or.inr hbegan
    · rw [setTask_ne hk] at htask
      exact Or.inl htask
  | firstRaised _ _ _ => exact Or.inl (ho rfl rfl rfl)
  | secondDone _ _ => exact Or.inl (ho rfl rfl rfl)
  | secondRaised _ _ => exact Or.inl (ho rfl rfl rfl)
  | crash => exact Or.inl (ho rfl rfl rfl)
  | store _ => exact Or.inl htask
  | queue _ _ => exact Or.inl htask
  | learn _ => exact Or.inl htask

/-- A call in progress goes on until its second transaction or its end. -/
theorem Acts.enqueueing_kept (h : Acts w now action w')
    (htask : (w.tasks i).enqueueing = some (ownerId, loaded)) :
    (w'.tasks i).enqueueing = some (ownerId, loaded) ∨ action = .crash i ∨
      ∃ availableAt, action = .second i availableAt := by
  have ho : ∀ {before : World} {k : Nat} (task : Task), before.tasks = w.tasks → i ≠ k →
      ((before.setTask k task).tasks i).enqueueing = some (ownerId, loaded) := by
    intro before k task hb hk
    rw [setTask_ne hk, hb]
    exact htask
  -- an idle call, or one before its first transaction, is not in progress
  have hbusy : ∀ {k : Nat}, (w.tasks k).enqueueing = none → i ≠ k := by
    rintro k hnone rfl
    rw [hnone] at htask
    cases htask
  have hidle : ∀ {k : Nat}, w.tasks k = .idle → i ≠ k := by
    intro k hk
    apply hbusy
    rw [hk]
    rfl
  cases h with
  | request hk => exact Or.inl (ho _ rfl (hidle hk))
  | sweep hk => exact Or.inl (ho _ rfl (hidle hk))
  | firstDone _ hnone _ => exact Or.inl (ho _ rfl (hbusy hnone))
  | firstRaised _ hnone _ => exact Or.inl (ho _ rfl (hbusy hnone))
  | @secondDone k _ availableAt _ _ _ _ _ =>
    by_cases hk : i = k
    · exact Or.inr (Or.inr ⟨availableAt, by rw [hk]⟩)
    · exact Or.inl (ho _ rfl hk)
  | @secondRaised k _ availableAt _ _ _ _ =>
    by_cases hk : i = k
    · exact Or.inr (Or.inr ⟨availableAt, by rw [hk]⟩)
    · exact Or.inl (ho _ rfl hk)
  | @crash k =>
    by_cases hk : i = k
    · exact Or.inr (Or.inl (by rw [hk]))
    · exact Or.inl (ho _ rfl hk)
  | store _ => exact Or.inl htask
  | queue _ _ => exact Or.inl htask
  | learn _ => exact Or.inl htask

/-! ## The other tables -/

theorem keys_updateActivity {act : ActivityInstance} {decision : TransitionDecision} :
    (db.updateActivity act decision).activities.map activityKey =
      db.activities.map activityKey :=
  Table.keys_modify activityKey_decided

theorem Acts.statuses (h : Acts w now action w') :
    ∀ status ∈ w'.db.statuses, status ∈ w.db.statuses ∨ StatusInv now status := by
  cases h with
  | firstDone _ _ hbegin =>
    rcases beginRequest_ok hbegin with ⟨-, -, rfl⟩ | ⟨loaded, -, hbegan⟩
    · exact fun _ => Or.inl
    · obtain ⟨moved, statuses, rfl, hval, -⟩ := hbegan.effect
      exact hval
  | secondDone _ hfin =>
    obtain ⟨res, queue, -, -, rfl⟩ := finishRequest_ok hfin
    exact fun _ => Or.inl
  | store hstore =>
    obtain ⟨loaded, moved, statuses, events, n, -, -, rfl, hval, -⟩ :=
      (storeReview_ok hstore).effect
    exact hval
  | learn hlearns =>
    rw [hlearns.statuses]
    exact fun _ => Or.inl
  | _ => exact fun _ => Or.inl

theorem Acts.activities (h : Acts w now action w') :
    w'.db.activities.map activityKey = w.db.activities.map activityKey ∨
      Learns w.db w'.db := by
  cases h with
  | firstDone _ _ hbegin =>
    rcases beginRequest_ok hbegin with ⟨-, -, rfl⟩ | ⟨loaded, -, hbegan⟩
    · exact Or.inl rfl
    · obtain ⟨moved, statuses, rfl, -, ⟨-, rfl⟩ | ⟨-, decision, -, rfl⟩⟩ := hbegan.effect
      · exact Or.inl rfl
      · exact Or.inl keys_updateActivity
  | secondDone _ hfin =>
    obtain ⟨res, queue, -, -, rfl⟩ := finishRequest_ok hfin
    exact Or.inl rfl
  | store hstore =>
    obtain ⟨loaded, moved, statuses, events, n, -, -, rfl, -, rfl | ⟨decision, -, rfl⟩⟩ :=
      (storeReview_ok hstore).effect
    · exact Or.inl rfl
    · exact Or.inl keys_updateActivity
  | learn hlearns => exact Or.inr hlearns
  | _ => exact Or.inl rfl

/-! ## The invariant -/

def ReviewJob (db : Db) (job : BackgroundJob) : Prop :=
  ∃ attemptId, InReview db job.ownerId job.payload.subjectId attemptId ∧
    job.idempotencyKey = reviewIdempotencyKey job.payload.subjectId attemptId ∧
    job.payload = ⟨1, job.payload.subjectId, some attemptId⟩ ∧
    job.priority = claudeAnalysisPriority ∧ job.maxAttempts = reviewMaxAttempts

structure WorldInv (w : World) : Prop where
  queue : QueueInv ⟨w.db.queue, w.clock⟩
  outbox : OutboxInv w.db.queue
  owners_pos : ∀ ownerId ∈ w.db.queue.owners, 0 < ownerId
  owners : ∀ activity ∈ w.db.activities, activity.ownerId ∈ w.db.queue.owners
  keyed : (w.db.activities.map activityKey).Nodup
  statuses : ∀ status ∈ w.db.statuses, StatusInv w.clock status
  inFlight : ∀ i ownerId loaded, (w.tasks i).enqueueing = some (ownerId, loaded) →
    InReview w.db ownerId loaded.activity.id loaded.attempt.id
  jobs : ∀ job ∈ w.db.queue.jobs, job.kind = reviewJobKind → ReviewJob w.db job

theorem worldInv_initial (h : Initial w) : WorldInv w := by
  obtain ⟨owners, start, trace, hqueue⟩ := h.queue
  refine ⟨hqueue.queueInv, hqueue.outboxInv, h.owners_pos, h.owners, h.keyed, h.statuses, ?_, ?_⟩
  · intro i ownerId loaded htask
    rw [h.idle i] at htask
    cases htask
  · intro job hjob hkind
    exact absurd hkind (h.unqueued job hjob)

theorem WorldInv.owner (hinv : WorldInv w) (hrev : InReview w.db ownerId activityId attemptId) :
    ownerId ∈ w.db.queue.owners ∧ 0 < ownerId := by
  obtain ⟨current, hload, -, -⟩ := hrev
  have hown := hinv.owners current.activity (Table.mem_of_lookup (load_activity hload))
  rw [(load_key hload).1] at hown
  exact ⟨hown, hinv.owners_pos ownerId hown⟩

section Step

variable {queue : Jobs.Store}

theorem Queued.queueInv (h : Queued w now queue) (hinv : WorldInv w) (hclk : w.clock ≤ now) :
    QueueInv ⟨queue, now⟩ ∧ OutboxInv queue ∧ queue.owners = w.db.queue.owners := by
  cases h with
  | drawn hqueue =>
    have hqueueInv := hinv.queue.advance hclk
    rw [hqueue]
    exact ⟨⟨⟨hqueueInv.keyed.nodup, hqueueInv.keyed.fresh⟩, hqueueInv.keys, hqueueInv.ids_pos,
      hqueueInv.next_pos, hqueueInv.rows⟩, ⟨hinv.outbox.emitted, hinv.outbox.nodup⟩, rfl⟩
  | called call hnow hstep _ =>
    obtain ⟨emitted, heff⟩ := step_effect hinv.queue.keyed hstep
    exact ⟨hstep.queueInv hinv.queue, hstep.outboxInv hinv.queue hinv.outbox, heff.owners⟩

theorem Queued.jobByKey? {key : String} {old : BackgroundJob} (h : Queued w now queue)
    (hinv : WorldInv w) (hold : w.db.queue.jobByKey? ownerId key = some old) :
    ∃ new, queue.jobByKey? ownerId key = some new ∧ provenance new = provenance old := by
  cases h with
  | drawn hqueue =>
    rw [hqueue]
    exact ⟨old, hold, rfl⟩
  | called call hnow hstep _ => exact hstep.jobByKey? hinv.queue hold

theorem Queued.origin {job : BackgroundJob} (h : Queued w now queue) (hinv : WorldInv w)
    (hjob : job ∈ queue.jobs) (hkind : job.kind = reviewJobKind) :
    (∃ old ∈ w.db.queue.jobs, provenance job = provenance old) ∨
      ∃ i ownerId loaded availableAt, (w.tasks i).enqueueing = some (ownerId, loaded) ∧
        job = newJob job.id ownerId (reviewCommand loaded availableAt)
          (reviewIdempotencyKey loaded.activity.id loaded.attempt.id) now := by
  cases h with
  | drawn hqueue =>
    rw [hqueue] at hjob
    exact Or.inl ⟨job, hjob, rfl⟩
  | called call hnow hstep henqueues =>
    rcases hstep.origin hinv.queue hjob with hold | ⟨ownerId, command, key, hcmd, hnew⟩
    · exact Or.inl hold
    · have hrev : command.kind = reviewJobKind := by
        rw [hnew] at hkind
        exact hkind
      obtain ⟨i, loaded, availableAt, htask, rfl, rfl⟩ :=
        henqueues ownerId command key hcmd hrev
      rw [hnow] at hnew
      exact Or.inr ⟨i, ownerId, loaded, availableAt, htask, hnew⟩

end Step

theorem ReviewJob.of_provenance {job old : BackgroundJob} (hold : ReviewJob db old)
    (hsame : provenance job = provenance old) : ReviewJob db job := by
  simp only [provenance, identity, Prod.mk.injEq] at hsame
  obtain ⟨⟨-, hown, hkey⟩, -, hpay, hprio, hmax⟩ := hsame
  unfold ReviewJob
  rw [hown, hkey, hpay, hprio, hmax]
  exact hold

theorem Acts.worldInv (h : Acts w now action w') (hclk : w.clock ≤ now) (hinv : WorldInv w) :
    WorldInv { w' with clock := now } := by
  have hqueued := h.queued hclk
  obtain ⟨hqueue, houtbox, howns⟩ := hqueued.queueInv hinv hclk
  have hflight : ∀ i ownerId loaded, (w.tasks i).enqueueing = some (ownerId, loaded) →
      InReview w'.db ownerId loaded.activity.id loaded.attempt.id :=
    fun i ownerId loaded htask => (h.activityChange _ _).inReview (hinv.inFlight i _ _ htask)
  refine ⟨hqueue, houtbox, ?_, ?_, ?_, ?_, ?_, ?_⟩
  · intro ownerId hown
    rw [howns] at hown
    exact hinv.owners_pos ownerId hown
  · intro act hact
    rcases h.activities with hkeys | hlearns
    · have hkey : activityKey act ∈ w.db.activities.map activityKey := by
        rw [← hkeys]
        exact List.mem_map_of_mem hact
      obtain ⟨old, hold, heq⟩ := List.mem_map.mp hkey
      have hown := hinv.owners old hold
      rw [(Prod.mk.inj heq).1, ← howns] at hown
      exact hown
    · exact hlearns.owners act hact
  · rcases h.activities with hkeys | hlearns
    · rw [hkeys]
      exact hinv.keyed
    · exact hlearns.keyed
  · intro status hst
    rcases h.statuses status hst with hold | hnew
    · obtain ⟨hval, hupdated⟩ := hinv.statuses status hold
      exact ⟨hval, hupdated.trans hclk⟩
    · exact hnew
  · intro i ownerId loaded htask
    rcases h.enqueueing htask with hold | hbegan
    · exact hflight i ownerId loaded hold
    · exact hbegan.inReview.2
  · intro job hjob hkind
    rcases hqueued.origin hinv hjob hkind with
      ⟨old, hold, hsame⟩ | ⟨i, ownerId, loaded, availableAt, htask, hnew⟩
    · have hkindOld : old.kind = reviewJobKind := by
        rw [← hkind]
        exact congrArg (fun columns => columns.2.1) hsame.symm
      obtain ⟨attemptId, hrev, hrest⟩ := hinv.jobs old hold hkindOld
      have ha : ReviewJob w'.db old :=
        ⟨attemptId, (h.activityChange _ _).inReview hrev, hrest⟩
      exact ha.of_provenance hsame
    · rw [hnew]
      exact ⟨loaded.attempt.id, hflight i ownerId loaded htask, rfl, rfl, rfl, rfl⟩

theorem Step.worldInv (h : Step w e w') (hinv : WorldInv w) : WorldInv w' := by
  obtain ⟨hclk, -, after, hacts, rfl⟩ := h
  exact hacts.worldInv hclk hinv

theorem RequestRun.worldInv {start : World} {trace : List (Transition World Event)}
    (hrun : RequestRun start trace w) : WorldInv w :=
  hrun.2.state_invariant (worldInv_initial hrun.1) fun _ _ _ hinv h => h.worldInv hinv

end TamForge.Reviews
