import TamForge.Jobs.Proofs.Rows

/-!
# The life of a job

The invariant of the whole queue, and what it says about every run: rows stay
valid, every change of a row is an allowed one, terminal rows are final, and
the attempt counter counts claims.
-/

namespace TamForge.Jobs

open Models Notifications ProofSupport

variable {w w' : World} {call : Call} {id : Nat} {owners : List Nat} {start : Instant}
  {trace : List (Transition World Call)}

/-! ## The queue invariant -/

/-- The invariant of every reachable store.  Both unique constraints hold,
identities stay in range, and every row satisfies its own invariant. -/
structure QueueInv (w : World) : Prop where
  keyed : w.store.Keyed
  keys : (w.store.jobs.map fun job => (job.ownerId, job.idempotencyKey)).Nodup
  ids_pos : ∀ job ∈ w.store.jobs, 0 < job.id ∧ job.id ≤ bigintMax
  next_pos : 0 < w.store.nextJobId
  rows : ∀ job ∈ w.store.jobs, RowInv w.clock job

theorem QueueInv.row {job : BackgroundJob} (h : QueueInv w)
    (hjob : w.store.job? id = some job) : RowInv w.clock job :=
  h.rows job (Table.mem_of_lookup hjob)

theorem queueInv_empty (owners : List Nat) (start : Instant) :
    QueueInv ⟨Store.empty owners, start⟩ where
  keyed := ⟨by simp [Store.empty], by simp [Store.empty]⟩
  keys := by simp [Store.empty]
  ids_pos := by simp [Store.empty]
  next_pos := Nat.one_pos
  rows := by simp [Store.empty]

theorem ids_eq (s : Store) :
    s.jobs.map BackgroundJob.id = (s.jobs.map identity).map Prod.fst := by
  rw [List.map_map]
  rfl

theorem keys_eq (s : Store) :
    (s.jobs.map fun job => (job.ownerId, job.idempotencyKey)) =
      (s.jobs.map identity).map Prod.snd := by
  rw [List.map_map]
  rfl

theorem mem_ids {s : Store} {job : BackgroundJob} (hmem : job ∈ s.jobs) :
    job.id ∈ (s.jobs.map identity).map Prod.fst := by
  rw [← ids_eq]
  exact List.mem_map_of_mem hmem

theorem Effect.keyed {s s' : Store} {emitted : List (BackgroundJob × JobEvent)}
    (h : Effect s call s' emitted) (hkey : s.Keyed) : s'.Keyed := by
  have hnew : ∀ n ∈ (s.jobs.map identity).map Prod.fst, n < s.nextJobId := by
    intro n hn
    rw [← ids_eq] at hn
    obtain ⟨job, hjob, rfl⟩ := List.mem_map.mp hn
    exact hkey.fresh job hjob
  have hnd := hkey.nodup
  rw [ids_eq] at hnd
  rcases h.identities with ⟨hsame, hnext⟩ | ⟨ownerId, key, hsame, hnext, -⟩
  · refine ⟨by rw [ids_eq, hsame]; exact hnd, ?_⟩
    intro job hjob
    have hmem := mem_ids hjob
    rw [hsame] at hmem
    rw [hnext]
    exact hnew job.id hmem
  · refine ⟨?_, ?_⟩
    · rw [ids_eq, hsame, List.map_append, List.nodup_append]
      refine ⟨hnd, by simp, ?_⟩
      intro n hn m hm heq
      rw [List.map_singleton, List.mem_singleton] at hm
      exact absurd (hnew n hn) (by rw [heq, hm]; exact lt_irrefl _)
    · intro job hjob
      have hmem := mem_ids hjob
      rw [hsame, List.map_append, List.mem_append] at hmem
      rw [hnext]
      rcases hmem with hmem | hmem
      · exact (hnew job.id hmem).trans (Nat.lt_succ_self _)
      · rw [List.map_singleton, List.mem_singleton] at hmem
        rw [hmem]
        exact Nat.lt_succ_self _

theorem jobByKey?_eq_none {s : Store} {ownerId : Nat} {key : String}
    (h : s.jobByKey? ownerId key = none) :
    (ownerId, key) ∉ s.jobs.map fun job => (job.ownerId, job.idempotencyKey) := by
  intro hmem
  obtain ⟨job, hjob, heq⟩ := List.mem_map.mp hmem
  have hnone := List.find?_eq_none.mp h job hjob
  cases heq
  simp at hnone

theorem Effect.keys {s s' : Store} {emitted : List (BackgroundJob × JobEvent)}
    (h : Effect s call s' emitted)
    (hkeys : (s.jobs.map fun job => (job.ownerId, job.idempotencyKey)).Nodup) :
    (s'.jobs.map fun job => (job.ownerId, job.idempotencyKey)).Nodup := by
  rcases h.identities with ⟨hsame, -⟩ | ⟨ownerId, key, hsame, -, hnone, -⟩
  · rw [keys_eq, hsame, ← keys_eq]
    exact hkeys
  · rw [keys_eq, hsame, List.map_append, ← keys_eq, List.nodup_append]
    refine ⟨hkeys, by simp, ?_⟩
    intro pair hpair other ho heq
    rw [List.map_singleton, List.mem_singleton] at ho
    rw [heq, ho] at hpair
    exact jobByKey?_eq_none hnone hpair

theorem Step.queueInv (h : Step w call w') (hinv : QueueInv w) : QueueInv w' := by
  obtain ⟨emitted, heff⟩ := step_effect hinv.keyed h
  have hkey := heff.keyed hinv.keyed
  refine ⟨hkey, heff.keys hinv.keys, ?_, ?_, ?_⟩
  · intro job hjob
    have hmem := mem_ids hjob
    rcases heff.identities with ⟨hsame, -⟩ | ⟨ownerId, key, hsame, -, -, hbound⟩
    · rw [hsame, ← ids_eq] at hmem
      obtain ⟨old, hold, heq⟩ := List.mem_map.mp hmem
      rw [← heq]
      exact hinv.ids_pos old hold
    · rw [hsame, List.map_append, ← ids_eq, List.mem_append] at hmem
      rcases hmem with hmem | hmem
      · obtain ⟨old, hold, heq⟩ := List.mem_map.mp hmem
        rw [← heq]
        exact hinv.ids_pos old hold
      · rw [List.map_singleton, List.mem_singleton] at hmem
        rw [hmem]
        exact ⟨hinv.next_pos, hbound⟩
  · rcases heff.identities with ⟨-, hnext⟩ | ⟨-, -, -, hnext, -⟩
    · rw [hnext]
      exact hinv.next_pos
    · rw [hnext]
      exact Nat.succ_pos _
  · intro job hjob
    obtain ⟨event, hchg, -⟩ := heff.rows job.id
    rw [h.2.1]
    exact hchg.rowInv (fun old hold => hinv.row hold) h.1 job
      (hkey.job?_of_mem hjob)

theorem QueueRun.queueInv (hrun : QueueRun owners start trace w) : QueueInv w :=
  hrun.state_invariant (queueInv_empty owners start) fun _ _ _ hinv h => h.queueInv hinv

/-! ## Single changes -/

section Change

variable {before after : Option BackgroundJob} {event : Option JobEvent}
  {old : BackgroundJob}

theorem RowChange.exists_after (h : RowChange call id (some old) after event) :
    ∃ new, after = some new := by
  cases h <;> exact ⟨_, rfl⟩

theorem RowChange.terminal (h : RowChange call id (some old) after event)
    (hterm : old.state.isTerminal = true) : after = some old := by
  have hrun : ∀ {state : JobState}, old.state = state → state.isTerminal = true := by
    intro state heq
    rwa [← heq]
  cases h with
  | unchanged => rfl
  | claimed _ _ hclm => cases hrun (claimable_eq_true hclm).1
  | extended _ _ hholds => cases hrun hholds.running
  | completed _ _ hholds => cases hrun hholds.running
  | retryWait _ _ hholds _ _ => cases hrun hholds.running
  | retryParked _ _ hholds => cases hrun hholds.running
  | canceled _ _ hact =>
    rcases hact with hact | hact
    · cases hrun hact
    · cases hrun hact
  | reclaimed _ hrecl _ => cases hrun (reclaimable_eq_true hrecl).1
  | reclaimParked _ hrecl _ => cases hrun (reclaimable_eq_true hrecl).1

end Change

/-! ## Counting claims -/

def claimsJob (id : Nat) (call : Call) : Bool :=
  match call.outcome with
  | .claimed (some job) => job.id == id
  | _ => false

def claimCount (id : Nat) (trace : List (Transition World Call)) : Nat :=
  trace.countP fun e => claimsJob id e.label

def attemptsOf (row : Option BackgroundJob) : Nat :=
  row.elim 0 BackgroundJob.attemptCount

theorem claimsJob_eq_true (h : claimsJob id call = true) :
    ∃ res : JobResponse, call.outcome = .claimed (some res) ∧ res.id = id := by
  unfold claimsJob at h
  split at h
  · rename_i res hout
    exact ⟨res, hout, by simpa using h⟩
  · cases h

theorem Step.attemptsOf (h : Step w call w') (hinv : QueueInv w) (id : Nat) :
    attemptsOf (w'.store.job? id) =
      attemptsOf (w.store.job? id) + if claimsJob id call then 1 else 0 := by
  by_cases hclaims : claimsJob id call = true
  · obtain ⟨res, hout, rfl⟩ := claimsJob_eq_true hclaims
    obtain ⟨cmd, locked, old, new, -, hold, -, hnew, -, ha⟩ :=
      step_claimed hinv.keyed h hout
    rw [hold, ha, if_pos hclaims, hnew]
    rfl
  · rw [if_neg hclaims, Nat.add_zero]
    obtain ⟨emitted, heff⟩ := step_effect hinv.keyed h
    obtain ⟨event, hchg, -⟩ := heff.rows id
    have hid : ∀ old, w.store.job? id = some old → old.id = id := fun old hold =>
      id_of_job? hold
    generalize w.store.job? id = before at hchg hid ⊢
    generalize w'.store.job? id = after at hchg ⊢
    cases hchg with
    | @claimed old cmd locked _ hout _ =>
      have hsame : (claimed call.now cmd.workerId
          (call.now + seconds cmd.leaseSeconds) old).id = id := hid old rfl
      simp [claimsJob, hout, response, hsame] at hclaims
    | _ => rfl

theorem QueueRun.attemptsOf (hrun : QueueRun owners start trace w) (id : Nat) :
    attemptsOf (w.store.job? id) = claimCount id trace := by
  have key : QueueInv w ∧ Jobs.attemptsOf (w.store.job? id) = claimCount id trace := by
    refine hrun.invariant (I := fun trace w =>
      QueueInv w ∧ Jobs.attemptsOf (w.store.job? id) = claimCount id trace)
      ⟨queueInv_empty owners start, rfl⟩ ?_
    rintro trace s call t ⟨hinv, hcnt⟩ h
    refine ⟨h.queueInv hinv, ?_⟩
    rw [h.attemptsOf hinv id, hcnt, claimCount, claimCount, List.countP_append]
    cases hclaims : claimsJob id call <;> simp [hclaims]
  exact key.2

/-! ## Runs -/

theorem QueueInv.terminal_run {s t : World} {later : List (Transition World Call)}
    {old : BackgroundJob} (hinv : QueueInv s) (hrun : Run Step s later t)
    (hold : s.store.job? id = some old) (hterm : old.state.isTerminal = true) :
    t.store.job? id = some old := by
  have key : QueueInv t ∧ t.store.job? id = some old := by
    refine hrun.state_invariant (I := fun w => QueueInv w ∧ w.store.job? id = some old)
      ⟨hinv, hold⟩ ?_
    rintro s call t ⟨hinv, hold⟩ h
    obtain ⟨emitted, heff⟩ := step_effect hinv.keyed h
    obtain ⟨event, hchg, -⟩ := heff.rows id
    rw [hold] at hchg
    exact ⟨h.queueInv hinv, hchg.terminal hterm⟩
  exact key.2

/-- Every transition of a run starts from a reachable world, and the rest of
the run starts where it ends. -/
theorem QueueRun.transition (hrun : QueueRun owners start trace w)
    {e : Transition World Call} (he : e ∈ trace) :
    QueueInv e.before ∧ Step e.before e.label e.after ∧ QueueInv e.after ∧
      ∃ later, Run Step e.after later w := by
  obtain ⟨before, later, -, hb, hstep, hlat⟩ := hrun.split he
  have hinv := QueueRun.queueInv hb
  exact ⟨hinv, hstep, hstep.queueInv hinv, later, hlat⟩

/-- The lifecycle of every job in every run: rows are valid, every change of a
row is allowed by the update validator at the clock of the call, a terminal
row is final, attempts count claims and stay within their limit, and a queued
row can always be claimed from its `available_at` on. -/
theorem lifecycle_of_run (hrun : QueueRun owners start trace w) :
    (∀ job ∈ w.store.jobs, validateBackgroundJob job = .ok ()) ∧
    (∀ e ∈ trace, ∀ id old, e.before.store.job? id = some old →
      ∃ new, e.after.store.job? id = some new ∧
        (new ≠ old → validateBackgroundJobUpdate e.label.now old new = .ok ())) ∧
    (∀ e ∈ trace, ∀ id old, e.before.store.job? id = some old →
      old.state.isTerminal = true → w.store.job? id = some old) ∧
    ∀ job ∈ w.store.jobs,
      job.attemptCount = claimCount job.id trace ∧
      job.attemptCount ≤ job.maxAttempts ∧
      (job.state = .queued → job.attemptCount < job.maxAttempts ∧
        ∀ now, job.availableAt ≤ now → ∀ command : ClaimJobCommand,
          job.kind ∈ command.kinds → claimable now command job = true) := by
  have hinv := hrun.queueInv
  refine ⟨fun job hjob => (hinv.rows job hjob).validate, ?_, ?_, ?_⟩
  · intro e he id old hold
    obtain ⟨hbefore, hstep, -, -⟩ := hrun.transition he
    obtain ⟨emitted, heffect⟩ := step_effect hbefore.keyed hstep
    obtain ⟨event, hchange, -⟩ := heffect.rows id
    rw [hold] at hchange
    obtain ⟨new, hnew⟩ := hchange.exists_after
    rw [hnew] at hchange
    exact ⟨new, hnew, hchange.validateUpdate (hbefore.row hold) hstep.1⟩
  · intro e he id old hold hterminal
    obtain ⟨hbefore, hstep, -, later, hlater⟩ := hrun.transition he
    exact hbefore.terminal_run ((Run.single hstep).append hlater) hold hterminal
  · intro job hjob
    have hrow := hinv.rows job hjob
    refine ⟨?_, hrow.attempts, ?_⟩
    · rw [← hrun.attemptsOf, hinv.keyed.job?_of_mem hjob]
      rfl
    · intro hqueued
      have hstate := hrow.state
      simp only [StateInv, hqueued] at hstate
      refine ⟨hstate.2.2.2, ?_⟩
      intro now hnow command hkind
      simp [claimable, hqueued, hnow, hstate.2.2.2, hkind]

theorem lifecycle_enqueue_claim :
    let run := sampleRun [(0, .enqueue 1 sampleEnqueue "review-7"), (5, .claim sampleClaim [])]
    run.2.store.jobs.map BackgroundJob.state = [.running] ∧
      ∀ job ∈ run.2.store.jobs, validateBackgroundJob job = .ok () ∧
        job.attemptCount = claimCount job.id run.1 := by
  intro run
  have hlife := lifecycle_of_run (queueRun_sampleRun
    [(0, .enqueue 1 sampleEnqueue "review-7"), (5, .claim sampleClaim [])] (by decide))
  exact ⟨by decide, fun job hjob => ⟨hlife.1 job hjob, (hlife.2.2.2 job hjob).1⟩⟩

end TamForge.Jobs
