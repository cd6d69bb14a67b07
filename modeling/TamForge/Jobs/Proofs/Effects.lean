import TamForge.Jobs.Repository

/-!
# What one call does

`RowChange` lists everything a call can do to one job row, with the guard
under which it does it, and `Effect` lifts it to the store and the outbox.
`step_effect` says that every call of a run has such an effect; the invariants
of the queue are derived from it and never unfold a command again.
-/

namespace TamForge.Jobs

open Models Notifications ProofSupport

/-- The worker holds a lease on the row that is still live at `now`. -/
structure Holds (job : BackgroundJob) (workerId : String) (now expiry : Instant) : Prop where
  running : job.state = .running
  owner : job.leaseOwner = some workerId
  expires : job.leaseExpiresAt = some expiry
  live : now < expiry

def identity (job : BackgroundJob) : Nat × Nat × String :=
  (job.id, job.ownerId, job.idempotencyKey)

/-- What a call does to the row `id`: the row before, the row after, and the
status event emitted for it. -/
inductive RowChange (call : Call) (id : Nat) :
    Option BackgroundJob → Option BackgroundJob → Option JobEvent → Prop
  | unchanged {row : Option BackgroundJob} : RowChange call id row row none
  | created {ownerId : Nat} {command : EnqueueJobCommand} {key : String} :
      call.command = .enqueue ownerId command key →
      call.outcome = .enqueued
        ⟨response (newJob id ownerId command key call.now), false⟩ →
      validateReferencePayloadV1 command.payload.modelDump = true →
      id ≤ bigintMax →
      RowChange call id none (some (newJob id ownerId command key call.now))
        (some .queued)
  | claimed {old : BackgroundJob} {command : ClaimJobCommand} {locked : List Nat} :
      call.command = .claim command locked →
      call.outcome = .claimed (some (response (claimed call.now command.workerId
        (call.now + seconds command.leaseSeconds) old))) →
      claimable call.now command old = true →
      RowChange call id (some old)
        (some (claimed call.now command.workerId
          (call.now + seconds command.leaseSeconds) old)) (some .running)
  | extended {old : BackgroundJob} {command : HeartbeatJobCommand} {expiry : Instant} :
      call.command = .heartbeat id command →
      call.outcome = .extended (response (extended call.now
        (expiry + seconds command.leaseSeconds) old)) →
      Holds old command.workerId call.now expiry →
      RowChange call id (some old)
        (some (extended call.now (expiry + seconds command.leaseSeconds) old)) none
  | completed {old : BackgroundJob} {command : CompleteJobCommand} {expiry : Instant} :
      call.command = .complete id command →
      call.outcome = .completed (response (completed call.now old)) →
      Holds old command.workerId call.now expiry →
      RowChange call id (some old) (some (completed call.now old)) (some .succeeded)
  | retryWait {old : BackgroundJob} {command : RetryJobCommand} {expiry : Instant} :
      call.command = .retry id command →
      call.outcome = .retried ⟨response (requeued call.now
        (call.now + seconds (retryDelay old.attemptCount command.failure))
        command.failure.category (errorDetails old.attemptCount command) old), .retryWait⟩ →
      Holds old command.workerId call.now expiry →
      old.attemptCount < old.maxAttempts →
      (command.failure.category = .transientDependency ∨
        command.failure.category = .resourceExhausted) →
      RowChange call id (some old)
        (some (requeued call.now
          (call.now + seconds (retryDelay old.attemptCount command.failure))
          command.failure.category (errorDetails old.attemptCount command) old))
        (some .retryWait)
  | retryParked {old : BackgroundJob} {command : RetryJobCommand} {expiry : Instant} :
      call.command = .retry id command →
      call.outcome = .retried ⟨response (parked call.now command.failure.category
        (errorDetails old.attemptCount command) old), .needsAttention⟩ →
      Holds old command.workerId call.now expiry →
      RowChange call id (some old)
        (some (parked call.now command.failure.category
          (errorDetails old.attemptCount command) old)) (some .needsAttention)
  | canceled {old : BackgroundJob} {ownerId : Nat} :
      call.command = .cancel ownerId id →
      call.outcome = .canceled (response (canceled call.now old)) →
      (old.state = .queued ∨ old.state = .running) →
      RowChange call id (some old) (some (canceled call.now old)) (some .canceled)
  | reclaimed {old : BackgroundJob} {limit : Nat} {locked : List Nat} :
      call.command = .reclaimExpired limit locked →
      reclaimable call.now old = true →
      old.attemptCount < old.maxAttempts →
      RowChange call id (some old)
        (some (requeued call.now call.now .transientDependency
          (reclaimDetails old.attemptCount) old)) (some .retryWait)
  | reclaimParked {old : BackgroundJob} {limit : Nat} {locked : List Nat} :
      call.command = .reclaimExpired limit locked →
      reclaimable call.now old = true →
      ¬old.attemptCount < old.maxAttempts →
      RowChange call id (some old)
        (some (parked call.now .processingFailure (reclaimDetails old.attemptCount) old))
        (some .needsAttention)

def eventRows (now : Instant) : Nat → List (BackgroundJob × JobEvent) → List OutboxEvent
  | _, [] => []
  | id, (job, event) :: rest => Store.eventRow id job event now :: eventRows now (id + 1) rest

def emittedFor : Option BackgroundJob → Option JobEvent → List (BackgroundJob × JobEvent)
  | some row, some event => [(row, event)]
  | some _, none => []
  | none, _ => []

@[simp] theorem emittedFor_none (row : Option BackgroundJob) : emittedFor row none = [] := by
  cases row <;> rfl

structure Effect (s : Store) (call : Call) (s' : Store)
    (emitted : List (BackgroundJob × JobEvent)) : Prop where
  owners : s'.owners = s.owners
  outbox : s'.outbox = s.outbox ++ eventRows call.now s.nextEventId emitted
  nextEventId : s'.nextEventId = s.nextEventId + emitted.length
  identities : (s'.jobs.map identity = s.jobs.map identity ∧ s'.nextJobId = s.nextJobId) ∨
    ∃ ownerId key, s'.jobs.map identity = s.jobs.map identity ++ [(s.nextJobId, ownerId, key)] ∧
      s'.nextJobId = s.nextJobId + 1 ∧ s.jobByKey? ownerId key = none ∧
      s.nextJobId ≤ bigintMax
  rows : ∀ id, ∃ event, RowChange call id (s.job? id) (s'.job? id) event ∧
    (emitted.filter fun e => e.1.id = id) = emittedFor (s'.job? id) event

namespace Effect

variable {s : Store} {call : Call}

theorem refl : Effect s call s [] where
  owners := rfl
  outbox := by simp [eventRows]
  nextEventId := rfl
  identities := Or.inl ⟨rfl, rfl⟩
  rows := fun id => ⟨none, .unchanged, by simp⟩

end Effect

/-! ## Rewriting rows -/

/-- One `UPDATE` of a loaded row together with the status event for it. -/
structure Write where
  job : BackgroundJob
  values : BackgroundJob → BackgroundJob
  event : JobEvent

def Store.rewrite (now : Instant) (s : Store) (w : Write) : Store :=
  (s.updateJob w.job.id w.values).emit (w.values w.job) w.event now

section Writes

variable {s : Store} {now : Instant} {id : Nat} {job : BackgroundJob}
  {values : BackgroundJob → BackgroundJob}

theorem id_of_identity (h : ∀ row, identity (values row) = identity row)
    (row : BackgroundJob) : (values row).id = row.id :=
  congrArg Prod.fst (h row)

theorem job?_updateJob_self (h : ∀ row, identity (values row) = identity row) :
    (s.updateJob id values).job? id = (s.job? id).map values :=
  Table.lookup_modify_self (id_of_identity h)

theorem job?_updateJob_ne (h : ∀ row, identity (values row) = identity row)
    {other : Nat} (hne : other ≠ id) :
    (s.updateJob id values).job? other = s.job? other :=
  Table.lookup_modify_ne (id_of_identity h) hne

theorem identities_updateJob (h : ∀ row, identity (values row) = identity row) :
    (s.updateJob id values).jobs.map identity = s.jobs.map identity := by
  simp only [Store.updateJob, Table.modify, List.map_map]
  apply List.map_congr_left
  intro row _
  simp only [Function.comp_apply]
  split
  · exact h row
  · rfl

theorem reload_updateJob (h : ∀ row, identity (values row) = identity row)
    (hjob : s.job? id = some job) :
    (s.updateJob id values).reload id = .ok (values job) := by
  simp [Store.reload, job?_updateJob_self h, hjob]

theorem id_of_job? (hjob : s.job? id = some job) : job.id = id :=
  Table.key_of_lookup hjob

@[simp] theorem job?_emit (event : JobEvent) :
    (s.emit job event now).job? id = s.job? id := rfl

@[simp] theorem jobs_emit (event : JobEvent) :
    (s.emit job event now).jobs = s.jobs := rfl

theorem job?_rewrite_ne (now : Instant) {w : Write}
    (h : ∀ row, identity (w.values row) = identity row) (hne : id ≠ w.job.id) :
    (s.rewrite now w).job? id = s.job? id :=
  job?_updateJob_ne h hne

/-- After a batch of writes to distinct rows, the written rows hold their new
values and every other row is untouched. -/
theorem job?_rewrites (now : Instant) (writes : List Write) (s : Store)
    (hnd : (writes.map fun w => w.job.id).Nodup)
    (hcur : ∀ w ∈ writes, s.job? w.job.id = some w.job)
    (hident : ∀ w ∈ writes, ∀ row, identity (w.values row) = identity row) :
    (∀ w ∈ writes, (writes.foldl (Store.rewrite now) s).job? w.job.id =
        some (w.values w.job)) ∧
      ∀ id, (∀ w ∈ writes, w.job.id ≠ id) →
        (writes.foldl (Store.rewrite now) s).job? id = s.job? id := by
  induction writes generalizing s with
  | nil => simp
  | cons first rest ih =>
    rw [List.map_cons, List.nodup_cons] at hnd
    have hfst := hident first (by simp)
    have ho : ∀ id, first.job.id ≠ id →
        (s.rewrite now first).job? id = s.job? id :=
      fun id hne => job?_rewrite_ne now hfst hne.symm
    have hapart : ∀ w ∈ rest, first.job.id ≠ w.job.id := by
      intro w hw heq
      exact hnd.1 (heq ▸ List.mem_map_of_mem hw)
    obtain ⟨hwr, hsame⟩ := ih (s.rewrite now first) hnd.2
      (fun w hw => by
        rw [ho _ (hapart w hw)]
        exact hcur w (by simp [hw]))
      (fun w hw => hident w (by simp [hw]))
    constructor
    · intro w hw
      rw [List.foldl_cons]
      rcases List.mem_cons.mp hw with rfl | hw
      · rw [hsame _ (fun w' hw' => (hapart w' hw').symm)]
        simp [Store.rewrite, job?_updateJob_self hfst, hcur w (by simp)]
      · exact hwr w hw
    · intro id hid
      rw [List.foldl_cons, hsame id (fun w hw => hid w (by simp [hw]))]
      exact ho id (hid first (by simp))

theorem outbox_rewrites (now : Instant) (writes : List Write) (s : Store) :
    (writes.foldl (Store.rewrite now) s).outbox =
        s.outbox ++ eventRows now s.nextEventId
          (writes.map fun w => (w.values w.job, w.event)) ∧
      (writes.foldl (Store.rewrite now) s).nextEventId = s.nextEventId + writes.length ∧
      (writes.foldl (Store.rewrite now) s).owners = s.owners ∧
      (writes.foldl (Store.rewrite now) s).nextJobId = s.nextJobId := by
  induction writes generalizing s with
  | nil => simp [eventRows]
  | cons first rest ih =>
    obtain ⟨houtbox, hnext, howns, hjobs⟩ := ih (s.rewrite now first)
    rw [List.foldl_cons, houtbox, hnext, howns, hjobs]
    refine ⟨?_, ?_, rfl, rfl⟩
    · simp [eventRows, Store.rewrite, Store.emit, Store.updateJob]
    · simp only [Store.rewrite, Store.emit, Store.updateJob, List.length_cons]
      omega

theorem identities_rewrites (now : Instant) (writes : List Write) (s : Store)
    (hident : ∀ w ∈ writes, ∀ row, identity (w.values row) = identity row) :
    (writes.foldl (Store.rewrite now) s).jobs.map identity = s.jobs.map identity := by
  induction writes generalizing s with
  | nil => rfl
  | cons first rest ih =>
    rw [List.foldl_cons, ih (s.rewrite now first) (fun w hw => hident w (by simp [hw]))]
    exact identities_updateJob (hident first (by simp))

end Writes

end TamForge.Jobs
