import TamForge.Jobs.Proofs.Effects

/-!
# Every call has an effect

One lemma per repository command: when it commits, its store is the old one
after a batch of writes that `RowChange` allows.
-/

namespace TamForge.Jobs

open Models Notifications ProofSupport

variable {s s' : Store} {call : Call} {now : Instant} {id : Nat} {job : BackgroundJob}
  {workerId : String}

/-! ## Batches of writes -/

theorem effect_rewrites (writes : List Write)
    (hnd : (writes.map fun w => w.job.id).Nodup)
    (hcur : ∀ w ∈ writes, s.job? w.job.id = some w.job)
    (hident : ∀ w ∈ writes, ∀ row, identity (w.values row) = identity row)
    (hchg : ∀ w ∈ writes, RowChange call w.job.id (some w.job)
      (some (w.values w.job)) (some w.event)) :
    Effect s call (writes.foldl (Store.rewrite call.now) s)
      (writes.map fun w => (w.values w.job, w.event)) := by
  obtain ⟨hwr, hsame⟩ := job?_rewrites call.now writes s hnd
    hcur hident
  obtain ⟨houtbox, hnext, howns, hjobs⟩ := outbox_rewrites call.now writes s
  have hid : ∀ w ∈ writes, (w.values w.job).id = w.job.id := fun w hw =>
    id_of_identity (hident w hw) w.job
  refine ⟨howns, houtbox, by simpa using hnext,
    Or.inl ⟨identities_rewrites call.now writes s hident, hjobs⟩, ?_⟩
  intro id
  by_cases hmem : ∃ w ∈ writes, w.job.id = id
  · obtain ⟨w, hw, rfl⟩ := hmem
    refine ⟨some w.event, ?_, ?_⟩
    · rw [hwr w hw, hcur w hw]
      exact hchg w hw
    · rw [hwr w hw]
      have hkeys : ((writes.map fun w => (w.values w.job, w.event)).map
          fun e => e.1.id).Nodup := by
        rw [List.map_map]
        convert hnd using 1
        exact List.map_congr_left hid
      have hmem := List.mem_map_of_mem (f := fun w : Write => (w.values w.job, w.event)) hw
      have hfilt := Table.filter_key_of_mem hkeys hmem
      rw [hid w hw] at hfilt
      exact hfilt
  · have hnone : ∀ w ∈ writes, w.job.id ≠ id := fun w hw heq => hmem ⟨w, hw, heq⟩
    refine ⟨none, ?_, ?_⟩
    · rw [hsame id hnone]
      exact .unchanged
    · have hnil : (writes.map fun w => (w.values w.job, w.event)).filter
          (fun e => e.1.id = id) = [] := by
        rw [List.filter_eq_nil_iff]
        intro e he
        obtain ⟨w, hw, rfl⟩ := List.mem_map.mp he
        simpa [hid w hw] using hnone w hw
      rw [hnil, emittedFor_none]

variable {values : BackgroundJob → BackgroundJob} {event : JobEvent}

/-- A single write. -/
theorem effect_rewrite (hjob : s.job? id = some job)
    (hident : ∀ row, identity (values row) = identity row)
    (hchg : RowChange call id (some job) (some (values job)) (some event)) :
    ∃ emitted, Effect s call
      ((s.updateJob id values).emit (values job) event call.now) emitted := by
  obtain rfl := id_of_job? hjob
  exact ⟨_, effect_rewrites [⟨job, values, event⟩] (by simp) (by simpa using hjob)
    (by simpa using hident) (by simpa using hchg)⟩

/-- A write that emits no event: the heartbeat. -/
theorem effect_silent (hjob : s.job? id = some job)
    (hident : ∀ row, identity (values row) = identity row)
    (hchg : RowChange call id (some job) (some (values job)) none) :
    Effect s call (s.updateJob id values) [] := by
  refine ⟨rfl, by simp [eventRows, Store.updateJob], rfl,
    Or.inl ⟨identities_updateJob hident, rfl⟩, ?_⟩
  intro other
  refine ⟨none, ?_, by simp⟩
  by_cases heq : other = id
  · rw [heq, job?_updateJob_self hident, hjob]
    exact hchg
  · rw [job?_updateJob_ne hident heq]
    exact .unchanged

/-! ## The guards -/

theorem statusEvent_ok (h : s.statusEvent job event now = .ok s') : s' = s.emit job event now := by
  simp only [Store.statusEvent, bind_ok_iff] at h
  obtain ⟨_, _, h⟩ := h
  exact (Except.ok.inj h).symm

theorem runningJob_ok (h : runningJob s now id workerId = .ok job) :
    s.job? id = some job ∧ ∃ expiry, Holds job workerId now expiry := by
  unfold runningJob at h
  split at h
  · cases h
  · rename_i row hrow
    split_ifs at h with hlease hexp
    cases h
    simp only [ne_eq, not_or, not_not] at hlease
    refine ⟨hrow, ?_⟩
    cases hexpy : job.leaseExpiresAt with
    | none => simp [hexpy] at hexp
    | some expiry =>
      refine ⟨expiry, hlease.1, hlease.2, hexpy, ?_⟩
      simpa [hexpy] using hexp

theorem addSeconds_ok {n : Nat} {expiresAt : Instant}
    (h : addSeconds now n = .ok expiresAt) : expiresAt = now + seconds n := by
  unfold addSeconds at h
  split_ifs at h
  exact (Except.ok.inj h).symm

theorem retryDisposition_ok {attemptCount maxAttempts : Nat} {category : ErrorCategory}
    {disposition : RetryDisposition}
    (h : retryDisposition attemptCount maxAttempts category = .ok disposition) :
    disposition = .retryWait → attemptCount < maxAttempts ∧
      (category = .transientDependency ∨ category = .resourceExhausted) := by
  unfold retryDisposition at h
  split_ifs at h with hbd hretry
  · intro _
    exact ⟨hretry.2, hretry.1⟩
  · cases h
    intro hwait
    cases hwait

/-! ## The commands -/

/-- The tail that every event-emitting command shares: update the loaded row,
read it back, emit its event. -/
theorem rewrite_reload_emit {current : BackgroundJob} (hjob : s.job? id = some job)
    (hrel : (s.updateJob job.id values).reload job.id = .ok current)
    (hst : (s.updateJob job.id values).statusEvent current event now = .ok s')
    (hident : ∀ row, identity (values row) = identity row) :
    current = values job ∧
      s' = (s.updateJob id values).emit (values job) event now := by
  obtain rfl := id_of_job? hjob
  rw [reload_updateJob hident hjob] at hrel
  cases hrel
  exact ⟨rfl, statusEvent_ok hst⟩

theorem complete_ok {cmd : CompleteJobCommand} {res : JobResponse}
    (h : complete s now id cmd = .ok (res, s')) :
    ∃ job expiry, s.job? id = some job ∧ Holds job cmd.workerId now expiry ∧
      res = response (completed now job) ∧
      s' = (s.updateJob id (completed now)).emit (completed now job) .succeeded now := by
  simp only [complete, bind_ok_iff] at h
  obtain ⟨job, hrun, current, hrel, after, hst, h⟩ := h
  obtain ⟨hjob, expiry, hholds⟩ := runningJob_ok hrun
  obtain ⟨rfl, rfl⟩ := rewrite_reload_emit hjob hrel hst (fun _ => rfl)
  cases h
  exact ⟨job, expiry, hjob, hholds, rfl, rfl⟩

theorem complete_effect {cmd : CompleteJobCommand} {res : JobResponse}
    (hcmd : call.command = .complete id cmd)
    (hout : call.outcome = .completed res)
    (h : complete s call.now id cmd = .ok (res, s')) :
    ∃ emitted, Effect s call s' emitted := by
  obtain ⟨job, expiry, hjob, hholds, rfl, rfl⟩ := complete_ok h
  exact effect_rewrite hjob (fun _ => rfl) (.completed hcmd hout hholds)

theorem heartbeat_ok {cmd : HeartbeatJobCommand} {res : JobResponse}
    (h : heartbeat s now id cmd = .ok (res, s')) :
    ∃ job expiry, s.job? id = some job ∧ Holds job cmd.workerId now expiry ∧
      res = response (extended now (expiry + seconds cmd.leaseSeconds) job) ∧
      s' = s.updateJob id (extended now (expiry + seconds cmd.leaseSeconds)) := by
  simp only [heartbeat, bind_ok_iff] at h
  obtain ⟨job, hrun, expiresAt, hexps, current, hrel, h⟩ := h
  obtain ⟨hjob, expiry, hholds⟩ := runningJob_ok hrun
  obtain rfl := id_of_job? hjob
  -- the guard already said that the old expiry is later than the clock
  have hbase : max now (job.leaseExpiresAt.getD now) = expiry := by
    rw [hholds.expires]
    exact max_eq_right hholds.live.le
  rw [hbase] at hexps
  obtain rfl := addSeconds_ok hexps
  have hident : ∀ row, identity (extended now
      (expiry + seconds cmd.leaseSeconds) row) = identity row := fun _ => rfl
  rw [reload_updateJob hident hjob] at hrel
  cases hrel
  cases h
  exact ⟨job, expiry, hjob, hholds, rfl, rfl⟩

theorem heartbeat_effect {cmd : HeartbeatJobCommand} {res : JobResponse}
    (hcmd : call.command = .heartbeat id cmd)
    (hout : call.outcome = .extended res)
    (h : heartbeat s call.now id cmd = .ok (res, s')) :
    ∃ emitted, Effect s call s' emitted := by
  obtain ⟨job, expiry, hjob, hholds, rfl, rfl⟩ := heartbeat_ok h
  exact ⟨[], effect_silent hjob (fun _ => rfl) (.extended hcmd hout hholds)⟩

/-- What a successful `retry` wrote: back to the queue, or parked. -/
theorem retry_ok {cmd : RetryJobCommand} {res : RetryResult}
    (h : retry s now id cmd = .ok (res, s')) :
    ∃ job expiry, s.job? id = some job ∧ Holds job cmd.workerId now expiry ∧
      ((job.attemptCount < job.maxAttempts ∧
          (cmd.failure.category = .transientDependency ∨
            cmd.failure.category = .resourceExhausted) ∧
          ∃ new, new = requeued now
              (now + seconds (retryDelay job.attemptCount cmd.failure))
              cmd.failure.category (errorDetails job.attemptCount cmd) ∧
            res = ⟨response (new job), .retryWait⟩ ∧
            s' = (s.updateJob id new).emit (new job) .retryWait now) ∨
        ∃ new, new = parked now cmd.failure.category
            (errorDetails job.attemptCount cmd) ∧
          res = ⟨response (new job), .needsAttention⟩ ∧
          s' = (s.updateJob id new).emit (new job) .needsAttention now) := by
  simp only [retry, bind_ok_iff] at h
  obtain ⟨job, hrun, disposition, hdisposition, h⟩ := h
  obtain ⟨hjob, expiry, hholds⟩ := runningJob_ok hrun
  refine ⟨job, expiry, hjob, hholds, ?_⟩
  cases disposition with
  | retryWait =>
    simp only [bind_ok_iff] at h
    obtain ⟨availableAt, havail, current, hrel, after, hst, h⟩ := h
    obtain rfl := addSeconds_ok havail
    obtain ⟨hatts, hcat⟩ := retryDisposition_ok hdisposition rfl
    obtain ⟨rfl, rfl⟩ := rewrite_reload_emit hjob hrel hst (fun _ => rfl)
    cases h
    exact Or.inl ⟨hatts, hcat, _, rfl, rfl, rfl⟩
  | needsAttention =>
    simp only [bind_ok_iff] at h
    obtain ⟨current, hrel, after, hst, h⟩ := h
    obtain ⟨rfl, rfl⟩ := rewrite_reload_emit hjob hrel hst (fun _ => rfl)
    cases h
    exact Or.inr ⟨_, rfl, rfl, rfl⟩

theorem retry_effect {cmd : RetryJobCommand} {res : RetryResult}
    (hcmd : call.command = .retry id cmd)
    (hout : call.outcome = .retried res)
    (h : retry s call.now id cmd = .ok (res, s')) :
    ∃ emitted, Effect s call s' emitted := by
  obtain ⟨job, expiry, hjob, hholds, hwrote⟩ := retry_ok h
  rcases hwrote with ⟨hatts, hcat, _, rfl, rfl, rfl⟩ | ⟨_, rfl, rfl, rfl⟩
  · exact effect_rewrite hjob (fun _ => rfl)
      (.retryWait hcmd hout hholds hatts hcat)
  · exact effect_rewrite hjob (fun _ => rfl) (.retryParked hcmd hout hholds)

variable {ownerId : Nat}

/-- A successful `cancel` found the job canceled already, or canceled it. -/
theorem cancel_ok {res : JobResponse} (h : cancel s now ownerId id = .ok (res, s')) :
    ∃ job, s.job? id = some job ∧ job.ownerId = ownerId ∧
      ((job.state = .canceled ∧ res = response job ∧ s' = s) ∨
        ((job.state = .queued ∨ job.state = .running) ∧
          res = response (canceled now job) ∧
          s' = (s.updateJob id (canceled now)).emit (canceled now job) .canceled now)) := by
  unfold cancel at h
  split at h
  · cases h
  · rename_i job hfilt
    obtain ⟨hjob, hown⟩ := Option.filter_eq_some_iff.mp hfilt
    refine ⟨job, hjob, by simpa using hown, ?_⟩
    have hwrite : (do
          let current ← (s.updateJob job.id (canceled now)).reload job.id
          let after ← (s.updateJob job.id (canceled now)).statusEvent current .canceled now
          return (response current, after)) = Except.ok (ε := JobError) (res, s') →
        res = response (canceled now job) ∧
          s' = (s.updateJob id (canceled now)).emit (canceled now job) .canceled now := by
      intro h
      simp only [bind_ok_iff] at h
      obtain ⟨current, hrel, after, hst, h⟩ := h
      obtain ⟨rfl, rfl⟩ := rewrite_reload_emit hjob hrel hst (fun _ => rfl)
      cases h
      exact ⟨rfl, rfl⟩
    split at h
    · cases h
      exact Or.inl ⟨‹_›, rfl, rfl⟩
    · cases h
    · cases h
    · exact Or.inr ⟨Or.inl ‹_›, hwrite h⟩
    · exact Or.inr ⟨Or.inr ‹_›, hwrite h⟩

theorem cancel_effect {res : JobResponse} (hcmd : call.command = .cancel ownerId id)
    (hout : call.outcome = .canceled res)
    (h : cancel s call.now ownerId id = .ok (res, s')) :
    ∃ emitted, Effect s call s' emitted := by
  obtain ⟨job, hjob, -, ⟨-, -, rfl⟩ | ⟨hact, rfl, rfl⟩⟩ := cancel_ok h
  · exact ⟨[], Effect.refl⟩
  · exact effect_rewrite hjob (fun _ => rfl) (.canceled hcmd hout hact)

structure Store.Keyed (s : Store) : Prop where
  nodup : (s.jobs.map BackgroundJob.id).Nodup
  fresh : ∀ job ∈ s.jobs, job.id < s.nextJobId

theorem Store.Keyed.job?_of_mem (hkey : s.Keyed) (hmem : job ∈ s.jobs) :
    s.job? job.id = some job :=
  Table.lookup_of_mem hkey.nodup hmem

variable {locked : List Nat}

/-- The row that `claim` picks is claimable. -/
theorem mem_of_claimable_head {cmd : ClaimJobCommand}
    (h : ((s.jobs.filter fun job => claimable now cmd job && !locked.contains job.id
      ).insertionSort claimsBefore).head? = some job)
    : job ∈ s.jobs ∧ claimable now cmd job = true := by
  have hsort := List.mem_of_mem_head? (Option.mem_def.mpr h)
  rw [List.mem_insertionSort, List.mem_filter, Bool.and_eq_true] at hsort
  exact ⟨hsort.1, hsort.2.1⟩

/-- A successful `claim` found nothing to do, or leased one claimable row. -/
theorem claim_ok {cmd : ClaimJobCommand} {res : Option JobResponse} (hkey : s.Keyed)
    (h : claim s now cmd locked = .ok (res, s')) :
    (res = none ∧ s' = s) ∨
      ∃ job new, s.job? job.id = some job ∧ claimable now cmd job = true ∧
        new = claimed now cmd.workerId (now + seconds cmd.leaseSeconds) ∧
        res = some (response (new job)) ∧
        s' = (s.updateJob job.id new).emit (new job) .running now := by
  simp only [claim] at h
  split at h
  · cases h
    exact Or.inl ⟨rfl, rfl⟩
  · rename_i job hhead
    obtain ⟨hmem, hclm⟩ := mem_of_claimable_head hhead
    have hjob := hkey.job?_of_mem hmem
    simp only [bind_ok_iff] at h
    obtain ⟨expiresAt, hexps, current, hrel, after, hst, h⟩ := h
    obtain rfl := addSeconds_ok hexps
    obtain ⟨rfl, rfl⟩ := rewrite_reload_emit hjob hrel hst (fun _ => rfl)
    cases h
    exact Or.inr ⟨job, _, hjob, hclm, rfl, rfl, rfl⟩

theorem claim_effect {cmd : ClaimJobCommand} {res : Option JobResponse} (hkey : s.Keyed)
    (hcmd : call.command = .claim cmd locked) (hout : call.outcome = .claimed res)
    (h : claim s call.now cmd locked = .ok (res, s')) :
    ∃ emitted, Effect s call s' emitted := by
  obtain ⟨-, rfl⟩ | ⟨job, new, hjob, hclm, rfl, rfl, rfl⟩ := claim_ok hkey h
  · exact ⟨[], Effect.refl⟩
  · exact effect_rewrite hjob (fun _ => rfl) (.claimed hcmd hout hclm)

theorem insertJob_ok (h : s.insertJob job = .ok s') :
    s' = { s with jobs := s.jobs ++ [job], nextJobId := s.nextJobId + 1 } ∧
      validateReferencePayloadV1 job.payload = true ∧ job.id ≤ bigintMax ∧
      s.jobByKey? job.ownerId job.idempotencyKey = none := by
  simp only [Store.insertJob, bind_ok_iff] at h
  obtain ⟨_, hpay, _, _, _, hconstraints, h⟩ := h
  rw [raiseFirst_eq_ok] at hpay hconstraints
  simp only [List.mem_cons, List.not_mem_nil, or_false, forall_eq, forall_eq_or_imp,
    Bool.not_eq_false', decide_eq_false_iff_not, not_lt, Option.isSome_eq_false_iff,
    Option.isNone_iff_eq_none] at hpay hconstraints
  exact ⟨(Except.ok.inj h).symm, hpay, hconstraints.1, hconstraints.2.2⟩

variable {key : String}

/-- A successful `enqueue` replayed an equal job, or inserted a new one. -/
theorem enqueue_ok {cmd : EnqueueJobCommand} {res : EnqueueResult}
    (h : enqueue s now ownerId cmd key = .ok (res, s')) :
    ownerId ∈ s.owners ∧
      ((∃ job, s.jobByKey? ownerId key = some job ∧
          sameEnqueue job cmd cmd.payload.modelDump = true ∧
          res = ⟨response job, true⟩ ∧ s' = s) ∨
        (s.jobByKey? ownerId key = none ∧
          validateReferencePayloadV1 cmd.payload.modelDump = true ∧
          s.nextJobId ≤ bigintMax ∧
          ∃ job, job = newJob s.nextJobId ownerId cmd key now ∧
            res = ⟨response job, false⟩ ∧
            s' = Store.emit { s with jobs := s.jobs ++ [job], nextJobId := s.nextJobId + 1 }
              job .queued now)) := by
  simp only [enqueue] at h
  split at h
  · cases h
  · rename_i hown
    refine ⟨not_not.mp hown, ?_⟩
    split at h
    · rename_i job hjob
      split at h
      · rename_i hsame
        cases h
        exact Or.inl ⟨job, hjob, hsame, rfl, rfl⟩
      · cases h
    · rename_i hkey
      simp only [bind_ok_iff] at h
      obtain ⟨inserted, hins, after, hst, h⟩ := h
      obtain ⟨rfl, hpay, hid, -⟩ := insertJob_ok hins
      obtain rfl := statusEvent_ok hst
      cases h
      exact Or.inr ⟨hkey, hpay, hid, _, rfl, rfl, rfl⟩

theorem enqueue_effect {cmd : EnqueueJobCommand} {res : EnqueueResult} (hkeyed : s.Keyed)
    (hcmd : call.command = .enqueue ownerId cmd key)
    (hout : call.outcome = .enqueued res)
    (h : enqueue s call.now ownerId cmd key = .ok (res, s')) :
    ∃ emitted, Effect s call s' emitted := by
  obtain ⟨-, ⟨job, -, -, -, rfl⟩ | ⟨hkey, hpay, hid, job, hjob, rfl, rfl⟩⟩ := enqueue_ok h
  · exact ⟨[], Effect.refl⟩
  · have hjobId : job.id = s.nextJobId := by rw [hjob]; rfl
    have hnone : s.job? job.id = none := by
      rw [Store.job?, Table.lookup_eq_none]
      intro row hrow heq
      exact absurd (hkeyed.fresh row hrow) (by rw [heq, hjobId]; exact lt_irrefl _)
    refine ⟨[(job, .queued)], rfl, by simp [eventRows, Store.emit], rfl,
      Or.inr ⟨ownerId, key, by simp [identity, hjob, newJob], rfl, hkey, hid⟩, ?_⟩
    intro id
    by_cases heq : id = job.id
    · subst heq
      refine ⟨some .queued, ?_, ?_⟩
      · rw [hnone, job?_emit, Store.job?, Table.lookup_append_self hnone]
        rw [hjobId] at *
        rw [hjob] at hout ⊢
        exact .created hcmd hout hpay hid
      · rw [job?_emit, Store.job?, Table.lookup_append_self hnone]
        simp [emittedFor]
    · refine ⟨none, ?_, ?_⟩
      · rw [job?_emit, Store.job?, Store.job?, Table.lookup_append_ne (Ne.symm heq)]
        exact .unchanged
      · simp [Ne.symm heq]

/-- What `reclaim_expired` writes to one expired row. -/
def reclaimWrite (now : Instant) (job : BackgroundJob) : Write :=
  if job.attemptCount < job.maxAttempts then
    ⟨job, requeued now now .transientDependency (reclaimDetails job.attemptCount), .retryWait⟩
  else
    ⟨job, parked now .processingFailure (reclaimDetails job.attemptCount), .needsAttention⟩

@[simp] theorem reclaimWrite_job : (reclaimWrite now job).job = job := by
  unfold reclaimWrite
  split <;> rfl

theorem reclaimWrite_identity (row : BackgroundJob) :
    identity ((reclaimWrite now job).values row) = identity row := by
  unfold reclaimWrite
  split <;> rfl

theorem reclaimJob_ok {res : ReclaimResult} (hjob : s.job? job.id = some job)
    (h : reclaimJob now (res, s) job = .ok (res', s')) :
    s' = s.rewrite now (reclaimWrite now job) := by
  have hident : ∀ row, identity ((reclaimWrite now job).values row) = identity row :=
    reclaimWrite_identity
  simp only [reclaimJob] at h
  unfold reclaimWrite at hident ⊢
  split_ifs at h hident ⊢ with hatts
  all_goals
    simp only [bind_ok_iff] at h
    obtain ⟨current, hrel, after, hst, h⟩ := h
    obtain ⟨-, rfl⟩ := rewrite_reload_emit hjob hrel hst hident
    cases h
    rfl

/-- The loop of `reclaim_expired` is a batch of writes. -/
theorem reclaim_fold_ok (batch : List BackgroundJob) (s : Store) {res : ReclaimResult}
    (hnd : (batch.map BackgroundJob.id).Nodup)
    (hcur : ∀ job ∈ batch, s.job? job.id = some job)
    (h : batch.foldlM (reclaimJob now) (res, s) = .ok (res', s')) :
    s' = (batch.map (reclaimWrite now)).foldl (Store.rewrite now) s := by
  induction batch generalizing s res with
  | nil =>
    cases h
    rfl
  | cons first rest ih =>
    rw [List.map_cons, List.nodup_cons] at hnd
    rw [List.foldlM_cons, bind_ok_iff] at h
    obtain ⟨⟨progress, after⟩, hfst, hrest⟩ := h
    obtain rfl := reclaimJob_ok (hcur first (by simp)) hfst
    refine ih _ hnd.2 ?_ hrest
    intro job hjob
    have hne : job.id ≠ first.id := by
      intro heq
      exact hnd.1 (heq ▸ List.mem_map_of_mem hjob)
    rw [job?_rewrite_ne now reclaimWrite_identity (by rwa [reclaimWrite_job])]
    exact hcur job (by simp [hjob])

variable {limit : Nat}

theorem mem_reclaimBatch (h : job ∈ reclaimBatch s now limit locked) :
    job ∈ s.jobs ∧ reclaimable now job = true := by
  have hmem := List.mem_of_mem_take h
  rw [List.mem_insertionSort, List.mem_filter, Bool.and_eq_true] at hmem
  exact ⟨hmem.1, hmem.2.1⟩

theorem nodup_reclaimBatch (hkey : s.Keyed) (now : Instant) (limit : Nat) (locked : List Nat) :
    ((reclaimBatch s now limit locked).map BackgroundJob.id).Nodup := by
  have hperm := List.perm_insertionSort expiresBefore
    (s.jobs.filter fun job => reclaimable now job && !locked.contains job.id)
  have hfilt : ((s.jobs.filter fun job =>
      reclaimable now job && !locked.contains job.id).map BackgroundJob.id).Nodup :=
    hkey.nodup.sublist (List.filter_sublist.map _)
  exact ((hperm.map _).nodup_iff.mpr hfilt).sublist ((List.take_sublist _ _).map _)

theorem reclaimExpired_effect {res : ReclaimResult} (hkey : s.Keyed)
    (hcmd : call.command = .reclaimExpired limit locked)
    (h : reclaimExpired s call.now limit locked = .ok (res, s')) :
    ∃ emitted, Effect s call s' emitted := by
  have hnd := nodup_reclaimBatch hkey call.now limit locked
  have hcur : ∀ job ∈ reclaimBatch s call.now limit locked, s.job? job.id = some job :=
    fun job hjob => hkey.job?_of_mem (mem_reclaimBatch hjob).1
  obtain rfl := reclaim_fold_ok _ s hnd hcur h
  refine ⟨_, effect_rewrites _ ?_ ?_ ?_ ?_⟩
  · simpa [List.map_map, Function.comp_def] using hnd
  · simpa using hcur
  · simp [reclaimWrite_identity]
  · intro w hw
    obtain ⟨job, hjob, rfl⟩ := List.mem_map.mp hw
    have hexp := (mem_reclaimBatch hjob).2
    unfold reclaimWrite
    split_ifs with hatts
    · exact .reclaimed hcmd hexp hatts
    · exact .reclaimParked hcmd hexp hatts

/-! ## Calls -/

inductive Committed (s : Store) (now : Instant) : Command → Outcome → Store → Prop
  | enqueue {ownerId : Nat} {command : EnqueueJobCommand} {key : String}
      {result : EnqueueResult} {s' : Store} :
      enqueue s now ownerId command key = .ok (result, s') →
      Committed s now (.enqueue ownerId command key) (.enqueued result) s'
  | claim {command : ClaimJobCommand} {locked : List Nat} {result : Option JobResponse}
      {s' : Store} :
      claim s now command locked = .ok (result, s') →
      Committed s now (.claim command locked) (.claimed result) s'
  | heartbeat {jobId : Nat} {command : HeartbeatJobCommand} {result : JobResponse}
      {s' : Store} :
      heartbeat s now jobId command = .ok (result, s') →
      Committed s now (.heartbeat jobId command) (.extended result) s'
  | complete {jobId : Nat} {command : CompleteJobCommand} {result : JobResponse}
      {s' : Store} :
      complete s now jobId command = .ok (result, s') →
      Committed s now (.complete jobId command) (.completed result) s'
  | retry {jobId : Nat} {command : RetryJobCommand} {result : RetryResult} {s' : Store} :
      retry s now jobId command = .ok (result, s') →
      Committed s now (.retry jobId command) (.retried result) s'
  | cancel {ownerId jobId : Nat} {result : JobResponse} {s' : Store} :
      cancel s now ownerId jobId = .ok (result, s') →
      Committed s now (.cancel ownerId jobId) (.canceled result) s'
  | reclaimExpired {limit : Nat} {locked : List Nat} {result : ReclaimResult} {s' : Store} :
      reclaimExpired s now limit locked = .ok (result, s') →
      Committed s now (.reclaimExpired limit locked) (.reclaimed result) s'

variable {outcome : Outcome}

theorem transact_eq {α : Type} {returned : α → Outcome} {x : Except JobError (α × Store)}
    (h : transact s returned x = (outcome, s')) :
    (∃ error, outcome = .raised error ∧ x = .error error ∧ s' = s) ∨
      ∃ value, outcome = returned value ∧ x = .ok (value, s') := by
  cases x with
  | error error =>
    cases h
    exact Or.inl ⟨error, rfl, rfl, rfl⟩
  | ok pair =>
    cases h
    exact Or.inr ⟨pair.1, rfl, rfl⟩

theorem exec_cases {cmd : Command} (h : exec s now cmd = (outcome, s')) :
    (∃ error, outcome = .raised error ∧ s' = s) ∨ Committed s now cmd outcome s' := by
  cases cmd <;>
    rcases transact_eq h with ⟨error, rfl, -, hsame⟩ | ⟨value, rfl, hok⟩ <;>
    first
      | exact Or.inl ⟨error, rfl, hsame⟩
      | exact Or.inr (by constructor; exact hok)

variable {w w' : World}

theorem step_cases (h : Step w call w') :
    (∃ error, call.outcome = .raised error ∧ w'.store = w.store) ∨
      Committed w.store call.now call.command call.outcome w'.store := by
  obtain ⟨-, -, hexec | ⟨hout, hsame⟩⟩ := h
  · exact exec_cases hexec
  · exact Or.inl ⟨.storageUnavailable, hout, hsame⟩

theorem step_effect (hkey : w.store.Keyed) (h : Step w call w') :
    ∃ emitted, Effect w.store call w'.store emitted := by
  rcases step_cases h with ⟨-, -, hsame⟩ | hcom
  · rw [hsame]
    exact ⟨[], Effect.refl⟩
  · obtain ⟨now, command, outcome⟩ := call
    cases hcom with
    | enqueue hok => exact enqueue_effect hkey rfl rfl hok
    | claim hok => exact claim_effect hkey rfl rfl hok
    | heartbeat hok => exact heartbeat_effect rfl rfl hok
    | complete hok => exact complete_effect rfl rfl hok
    | retry hok => exact retry_effect rfl rfl hok
    | cancel hok => exact cancel_effect rfl rfl hok
    | reclaimExpired hok => exact reclaimExpired_effect hkey rfl hok

theorem step_claimed {res : JobResponse} (hkey : w.store.Keyed) (h : Step w call w')
    (hout : call.outcome = .claimed (some res)) :
    ∃ cmd locked old new, call.command = .claim cmd locked ∧
      w.store.job? res.id = some old ∧ claimable call.now cmd old = true ∧
      new = claimed call.now cmd.workerId
        (call.now + seconds cmd.leaseSeconds) old ∧
      res = response new ∧ w'.store.job? res.id = some new := by
  rcases step_cases h with ⟨error, hraised, -⟩ | hcom
  · rw [hraised] at hout
    cases hout
  · obtain ⟨now, cmd, outcome⟩ := call
    dsimp only at hout
    subst hout
    cases hcom with
    | @claim cmd _ _ _ hok =>
      obtain ⟨hnone, -⟩ | ⟨old, new, hjob, hclm, rfl, hres, hstore⟩ :=
        claim_ok hkey hok
      · cases hnone
      · replace hres : res = response (claimed now cmd.workerId
          (now + seconds cmd.leaseSeconds) old) := Option.some.inj hres
        have hident : ∀ row, identity (claimed now cmd.workerId
            (now + seconds cmd.leaseSeconds) row) = identity row := fun _ => rfl
        subst hres
        refine ⟨_, _, old, _, rfl, hjob, hclm, rfl, rfl, ?_⟩
        rw [hstore, job?_emit]
        exact (job?_updateJob_self hident).trans (by rw [hjob]; rfl)

end TamForge.Jobs
