import TamForge.Jobs.Proofs.Lifecycle

/-!
# Enqueueing twice

`enqueue` looks a job up by owner and key and compares the stored row with the
command.  Every compared column but `available_at` is immutable, so whether a
second call with the same command replays is decided by that column alone.
-/

namespace TamForge.Jobs

open Models Notifications ProofSupport

variable {w w' : World} {call : Call} {id : Nat} {owners : List Nat} {start : Instant}
  {trace : List (Transition World Call)} {s : Store} {job old new : BackgroundJob}

/-! ## Immutable columns -/

/-- The columns that `_same_enqueue` compares and no command writes, together
with the identity of the row. -/
def provenance (job : BackgroundJob) :
    (Nat × Nat × String) × String × PayloadFields × Nat × Nat :=
  (identity job, job.kind, job.payload, job.priority, job.maxAttempts)

variable {event : Option JobEvent}

theorem RowChange.provenance (h : RowChange call id (some old) (some new) event) :
    provenance new = provenance old := by
  cases h <;> rfl

theorem RowChange.availableAt (h : RowChange call id (some old) (some new) event) :
    new.availableAt = old.availableAt ∨ old.state = .running ∧ new.state = .queued := by
  cases h with
  | retryWait _ _ hholds _ _ => exact Or.inr ⟨hholds.running, rfl⟩
  | reclaimed _ hrecl _ =>
    exact Or.inr ⟨(reclaimable_eq_true hrecl).1, rfl⟩
  | _ => exact Or.inl rfl

theorem Step.row (h : Step w call w') (hinv : QueueInv w)
    (hold : w.store.job? id = some old) :
    ∃ new event, w'.store.job? id = some new ∧
      RowChange call id (some old) (some new) event := by
  obtain ⟨emitted, heff⟩ := step_effect hinv.keyed h
  obtain ⟨event, hchg, -⟩ := heff.rows id
  rw [hold] at hchg
  obtain ⟨new, hnew⟩ := hchg.exists_after
  rw [hnew] at hchg
  exact ⟨new, event, hnew, hchg⟩

/-- The transition sends the job back to the queue, available at `availableAt`. -/
def Requeues (id : Nat) (availableAt : Instant) (e : Transition World Call) : Prop :=
  ∃ old new, e.before.store.job? id = some old ∧ e.after.store.job? id = some new ∧
    old.state = .running ∧ new.state = .queued ∧ new.availableAt = availableAt

/-- What a run keeps of a row: its provenance, and `available_at` as long as it
is never sent back to the queue with another one. -/
theorem QueueInv.row_run {t : World} {later : List (Transition World Call)}
    (hinv : QueueInv w) (hrun : Run Step w later t) (hold : w.store.job? id = some old) :
    t.store.owners = w.store.owners ∧ ∃ new, t.store.job? id = some new ∧
      provenance new = provenance old ∧
      ((∀ e ∈ later, ∀ availableAt, Requeues id availableAt e →
        availableAt = old.availableAt) → new.availableAt = old.availableAt) := by
  have key : QueueInv t ∧ t.store.owners = w.store.owners ∧
      ∃ new, t.store.job? id = some new ∧ provenance new = provenance old ∧
        ((∀ e ∈ later, ∀ availableAt, Requeues id availableAt e →
          availableAt = old.availableAt) → new.availableAt = old.availableAt) := by
    refine hrun.invariant (I := fun later t =>
      QueueInv t ∧ t.store.owners = w.store.owners ∧
        ∃ new, t.store.job? id = some new ∧ provenance new = provenance old ∧
          ((∀ e ∈ later, ∀ availableAt, Requeues id availableAt e →
            availableAt = old.availableAt) → new.availableAt = old.availableAt))
      ⟨hinv, rfl, old, hold, rfl, fun _ => rfl⟩ ?_
    rintro later s call t ⟨hs, howns, row, hrow, hprov, havail⟩ h
    obtain ⟨emitted, heff⟩ := step_effect hs.keyed h
    obtain ⟨new, event, hnew, hchg⟩ := h.row hs hrow
    refine ⟨h.queueInv hs, heff.owners.trans howns, new, hnew,
      hchg.provenance.trans hprov, ?_⟩
    intro hsame
    have hearl := havail fun e he => hsame e (List.mem_append_left _ he)
    rcases hchg.availableAt with hkept | ⟨hrunning, hqueued⟩
    · exact hkept.trans hearl
    · exact hsame ⟨s, call, t⟩ (by simp) new.availableAt
        ⟨row, new, hrow, hnew, hrunning, hqueued, rfl⟩
  exact key.2

/-! ## Looking a job up by its key -/

theorem jobByKey?_eq_lookup (ownerId : Nat) (key : String) :
    s.jobByKey? ownerId key =
      Table.lookup (fun job : BackgroundJob => (job.ownerId, job.idempotencyKey)) s.jobs
        (ownerId, key) := by
  unfold Store.jobByKey? Table.lookup
  congr 1
  funext job
  rw [Bool.eq_iff_iff]
  simp

theorem QueueInv.jobByKey?_of_job? (hinv : QueueInv w) (hjob : w.store.job? id = some job) :
    w.store.jobByKey? job.ownerId job.idempotencyKey = some job := by
  rw [jobByKey?_eq_lookup]
  exact Table.lookup_of_mem hinv.keys (Table.mem_of_lookup hjob)

variable {ownerId : Nat} {key : String}

theorem Step.jobByKey? (h : Step w call w') (hinv : QueueInv w)
    (hold : w.store.jobByKey? ownerId key = some old) :
    ∃ new, w'.store.jobByKey? ownerId key = some new ∧ provenance new = provenance old := by
  rw [jobByKey?_eq_lookup] at hold
  have hjob := hinv.keyed.job?_of_mem (Table.mem_of_lookup hold)
  have hcols := Table.key_of_lookup hold
  obtain ⟨hown, hkey⟩ := Prod.mk.inj hcols
  obtain ⟨new, event, hnew, hchg⟩ := h.row hinv hjob
  have hprov := hchg.provenance
  have hlook := (h.queueInv hinv).jobByKey?_of_job? hnew
  simp only [Jobs.provenance, identity, Prod.mk.injEq] at hprov
  obtain ⟨⟨-, hown', hkey'⟩, -⟩ := hprov
  rw [hown', hkey', hown, hkey] at hlook
  exact ⟨new, hlook, hchg.provenance⟩

theorem Step.origin (h : Step w call w') (hinv : QueueInv w) (hjob : job ∈ w'.store.jobs) :
    (∃ old ∈ w.store.jobs, provenance job = provenance old) ∨
      ∃ ownerId command key, call.command = .enqueue ownerId command key ∧
        job = newJob job.id ownerId command key call.now := by
  obtain ⟨emitted, heff⟩ := step_effect hinv.keyed h
  obtain ⟨event, hchg, -⟩ := heff.rows job.id
  rw [(h.queueInv hinv).keyed.job?_of_mem hjob] at hchg
  cases hb : w.store.job? job.id with
  | some old =>
    rw [hb] at hchg
    exact Or.inl ⟨old, Table.mem_of_lookup hb, hchg.provenance⟩
  | none =>
    rw [hb] at hchg
    generalize hsome : some job = after at hchg
    cases hchg with
    | unchanged => cases hsome
    | created hcmd _ _ _ => exact Or.inr ⟨_, _, _, hcmd, Option.some.inj hsome⟩

variable {command : EnqueueJobCommand}

theorem step_enqueued {res : JobResponse} (hinv : QueueInv w) (h : Step w call w')
    (hcmd : call.command = .enqueue ownerId command key)
    (hout : call.outcome = .enqueued ⟨res, false⟩) :
    ownerId ∈ w'.store.owners ∧
      w'.store.job? res.id = some (newJob res.id ownerId command key call.now) := by
  rcases step_cases h with ⟨error, hraised, -⟩ | hcom
  · rw [hraised] at hout
    cases hout
  · rw [hcmd, hout] at hcom
    cases hcom with
    | enqueue hok =>
      obtain ⟨hown, ⟨job, -, -, hres, -⟩ | ⟨-, -, -, job, hjob, hres, hstore⟩⟩ :=
        enqueue_ok hok
      · cases hres
      · cases hres
        have hid : job.id = w.store.nextJobId := by rw [hjob]; rfl
        have hnone : w.store.job? job.id = none := by
          rw [Store.job?, Table.lookup_eq_none]
          intro row hrow heq
          exact absurd (hinv.keyed.fresh row hrow) (by rw [heq, hid]; exact lt_irrefl _)
        rw [hstore]
        refine ⟨hown, ?_⟩
        rw [job?_emit]
        refine (Table.lookup_append_self hnone).trans ?_
        rw [hjob]
        rfl

/-! ## Replay and conflict -/

theorem modelDump_injective {a b : ReferencePayload} (h : a.modelDump = b.modelDump) :
    a = b := by
  obtain ⟨subject, related, _, _⟩ := a
  obtain ⟨subject', related', _, _⟩ := b
  cases h
  rfl

variable {other : EnqueueJobCommand}

/-- `_same_enqueue` against a row whose immutable columns come from `command`. -/
theorem sameEnqueue_iff (hkind : job.kind = command.kind)
    (hpay : job.payload = command.payload.modelDump)
    (hprio : job.priority = command.priority) (hmax : job.maxAttempts = command.maxAttempts) :
    sameEnqueue job other other.payload.modelDump = true ↔
      other = { command with availableAt := job.availableAt } := by
  obtain ⟨kind, payload, priority, availableAt, maxAttempts, _, _, _, _⟩ := other
  simp only [sameEnqueue, Bool.and_eq_true, beq_iff_eq, hkind, hpay, hprio, hmax,
    EnqueueJobCommand.mk.injEq]
  constructor
  · rintro ⟨⟨⟨⟨rfl, hdump⟩, rfl⟩, rfl⟩, rfl⟩
    exact ⟨rfl, (modelDump_injective hdump).symm, rfl, rfl, rfl⟩
  · rintro ⟨rfl, rfl, rfl, rfl, rfl⟩
    exact ⟨⟨⟨⟨rfl, rfl⟩, rfl⟩, rfl⟩, rfl⟩

/-- Enqueueing `command` again returns `job` and changes nothing, and any other
command under the key is refused and changes nothing. -/
def Replays (s : Store) (ownerId : Nat) (command : EnqueueJobCommand) (key : String)
    (job : BackgroundJob) : Prop :=
  ∀ now,
    exec s now (.enqueue ownerId command key) = (.enqueued ⟨response job, true⟩, s) ∧
    ∀ other, other ≠ command →
      ∃ message, exec s now (.enqueue ownerId other key) = (.raised (.conflict message), s)

theorem enqueue_existing (hown : ownerId ∈ s.owners) (hjob : s.jobByKey? ownerId key = some job)
    (now : Instant) :
    exec s now (.enqueue ownerId other key) =
      if sameEnqueue job other other.payload.modelDump then
        (.enqueued ⟨response job, true⟩, s)
      else
        (.raised (.conflict "Idempotency-Key was reused for another job"), s) := by
  simp only [exec, enqueue, hown, not_true_eq_false, if_false, hjob]
  split <;> rfl

/-- After a job was created, whatever happened to it since, enqueueing replays
exactly when its row is still available at the instant of its command; and
that is so whenever no retry or reclaim has moved it. -/
theorem enqueue_replays_iff {e : Transition World Call} {ownerId : Nat}
    {command : EnqueueJobCommand} {key : String} {result : JobResponse}
    (hrun : QueueRun owners start trace w) (he : e ∈ trace)
    (hcommand : e.label.command = .enqueue ownerId command key)
    (hcreated : e.label.outcome = .enqueued ⟨result, false⟩) :
    ∃ job, w.store.job? result.id = some job ∧
      (Replays w.store ownerId command key job ↔ job.availableAt = command.availableAt) ∧
      ((∀ e' ∈ trace, ∀ availableAt, Requeues result.id availableAt e' →
        availableAt = command.availableAt) → job.availableAt = command.availableAt) := by
  obtain ⟨before, later, htrace, hbefore, hstep, hlater⟩ := hrun.split he
  have hinv := QueueRun.queueInv hbefore
  obtain ⟨howner, hnew⟩ := step_enqueued hinv hstep hcommand hcreated
  obtain ⟨howners, job, hjob, hprovenance, havailable⟩ :=
    (hstep.queueInv hinv).row_run hlater hnew
  refine ⟨job, hjob, ?_, ?_⟩
  · simp only [provenance, identity, newJob, Prod.mk.injEq] at hprovenance
    obtain ⟨⟨-, howner', hkey⟩, hkind, hpayload, hpriority, hmax⟩ := hprovenance
    have hlookup := hrun.queueInv.jobByKey?_of_job? hjob
    rw [howner', hkey] at hlookup
    rw [← howners] at howner
    have hsame : ∀ other : EnqueueJobCommand,
        sameEnqueue job other other.payload.modelDump = true ↔
          other = { command with availableAt := job.availableAt } :=
      fun _ => sameEnqueue_iff hkind hpayload hpriority hmax
    constructor
    · intro hreplays
      have hagain := (hreplays 0).1
      rw [enqueue_existing howner hlookup] at hagain
      split at hagain
      · rename_i hequal
        have hcommand' := (hsame command).mp hequal
        rw [hcommand']
      · simp at hagain
    · intro havailableAt now
      have hself : ({ command with availableAt := job.availableAt } : EnqueueJobCommand) =
          command := by
        rw [havailableAt]
      constructor
      · rw [enqueue_existing howner hlookup, if_pos ((hsame command).mpr hself.symm)]
      · intro other hne
        refine ⟨"Idempotency-Key was reused for another job", ?_⟩
        rw [enqueue_existing howner hlookup, if_neg]
        intro hequal
        exact hne (((hsame other).mp hequal).trans hself)
  · intro hmoved
    refine havailable ?_
    intro e' he' availableAt hrequeues
    exact hmoved e' (by simp [htrace, he']) availableAt hrequeues

/-- A completed job replays. -/
theorem enqueue_replays_after_complete :
    let run := sampleRun [(0, .enqueue 1 sampleEnqueue "review-7"), (5, .claim sampleClaim []),
      (9, .complete 1 sampleComplete)]
    ∃ job, run.2.store.job? 1 = some job ∧ job.state = .succeeded ∧
      Replays run.2.store 1 sampleEnqueue "review-7" job := by
  intro run
  have hrun := queueRun_sampleRun [(0, .enqueue 1 sampleEnqueue "review-7"),
    (5, .claim sampleClaim []), (9, .complete 1 sampleComplete)] (by decide)
  have hcommand : run.1[0].label.command = .enqueue 1 sampleEnqueue "review-7" := rfl
  have hcreated : run.1[0].label.outcome =
      .enqueued ⟨response (newJob 1 1 sampleEnqueue "review-7" 0), false⟩ := rfl
  obtain ⟨job, hjob, hreplays, -⟩ :=
    enqueue_replays_iff hrun (List.getElem_mem _) hcommand hcreated
  have hrow : run.2.store.job? 1 = some (completed 9 (claimed 5 "worker-a"
      (5 + seconds 120) (newJob 1 1 sampleEnqueue "review-7" 0))) := by
    decide
  obtain rfl := Option.some.inj (hjob.symm.trans hrow)
  exact ⟨_, hrow, rfl, hreplays.mpr rfl⟩

/-- A retried job does not: its `available_at` has moved past the command's. -/
theorem enqueue_conflicts_after_retry :
    let run := sampleRun [(0, .enqueue 1 sampleEnqueue "review-7"), (5, .claim sampleClaim []),
      (9, .retry 1 sampleRetry)]
    QueueRun [1] 0 run.1 run.2 ∧
      (∃ e ∈ run.1, e.label.command = .enqueue 1 sampleEnqueue "review-7" ∧
        e.label.outcome = .enqueued ⟨response (newJob 1 1 sampleEnqueue "review-7" 0), false⟩) ∧
      ∀ job, ¬Replays run.2.store 1 sampleEnqueue "review-7" job := by
  intro run
  refine ⟨queueRun_sampleRun _ (by decide), ⟨run.1[0], List.getElem_mem _, rfl, rfl⟩, ?_⟩
  intro job hreplays
  have hconflict : exec run.2.store 9 (.enqueue 1 sampleEnqueue "review-7") =
      (.raised (.conflict "Idempotency-Key was reused for another job"), run.2.store) := by
    decide
  have hagain := (hreplays 9).1
  rw [hconflict] at hagain
  simp at hagain

end TamForge.Jobs
