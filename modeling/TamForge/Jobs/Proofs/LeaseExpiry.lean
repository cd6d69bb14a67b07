import TamForge.Jobs.Proofs.Leases

/-!
# When a lease runs out

`heartbeat` extends a lease from its old expiry, which is always later than the
clock, so every heartbeat adds its `lease_seconds` to what is left.  The expiry
of a running job is therefore its claim plus the lease of the claim plus the
leases of all heartbeats since.
-/

namespace TamForge.Jobs

open Models Notifications ProofSupport

variable {w w' : World} {call : Call} {id : Nat} {owners : List Nat} {start now : Instant}
  {trace later : List (Transition World Call)} {s : Store} {job : BackgroundJob}

/-- The time that the call adds to the lease of the job: the `lease_seconds` of
a heartbeat that succeeded. -/
def extensionOf (id : Nat) (call : Call) : Int :=
  match call.command, call.outcome with
  | .heartbeat jobId command, .extended _ =>
    if jobId = id then seconds command.leaseSeconds else 0
  | _, _ => 0

/-- The time that a run adds to the lease of the job. -/
def extensions (id : Nat) (trace : List (Transition World Call)) : Int :=
  (trace.map fun e => extensionOf id e.label).sum

@[simp] theorem extensions_nil (id : Nat) : extensions id [] = 0 := rfl

theorem extensions_snoc (id : Nat) (trace : List (Transition World Call))
    (e : Transition World Call) :
    extensions id (trace ++ [e]) = extensions id trace + extensionOf id e.label := by
  simp [extensions]

theorem step_extended {jobId : Nat} {cmd : HeartbeatJobCommand} {res : JobResponse}
    (h : Step w call w') (hcmd : call.command = .heartbeat jobId cmd)
    (hout : call.outcome = .extended res) :
    ∃ old expiry, w.store.job? jobId = some old ∧
      Holds old cmd.workerId call.now expiry ∧
      w'.store.job? jobId =
        some (extended call.now (expiry + seconds cmd.leaseSeconds) old) := by
  rcases step_cases h with ⟨error, hraised, -⟩ | hcom
  · rw [hraised] at hout
    cases hout
  · rw [hcmd, hout] at hcom
    cases hcom with
    | heartbeat hok =>
      obtain ⟨old, expiry, hold, hholds, -, hstore⟩ := heartbeat_ok hok
      refine ⟨old, expiry, hold, hholds, ?_⟩
      have hident : ∀ row, identity (extended call.now
          (expiry + seconds cmd.leaseSeconds) row) = identity row := fun _ => rfl
      rw [hstore, job?_updateJob_self hident, hold]
      rfl

/-- The lease of a running row, read off the run: `claim` is its last claim,
and the lease ends as far after it as the claim and all heartbeats since say. -/
def LeaseHistory (id : Nat) (job : BackgroundJob) (trace : List (Transition World Call)) :
    Prop :=
  ∃ before claim later command locked,
    trace = before ++ claim :: later ∧
    claim.label.command = .claim command locked ∧ claimsJob id claim.label = true ∧
    job.leaseOwner = some command.workerId ∧
    (∀ e ∈ later, claimsJob id e.label = false) ∧
    job.leaseExpiresAt =
      some (claim.label.now + seconds command.leaseSeconds + extensions id later)

theorem LeaseHistory.snoc {old new : BackgroundJob} {e : Transition World Call}
    {expiry : Instant} (h : LeaseHistory id old trace)
    (hclaims : claimsJob id e.label = false) (hown : new.leaseOwner = old.leaseOwner)
    (hold : old.leaseExpiresAt = some expiry)
    (hnew : new.leaseExpiresAt = some (expiry + extensionOf id e.label)) :
    LeaseHistory id new (trace ++ [e]) := by
  obtain ⟨before, claim, later, command, locked, rfl, hcmd, hclaim, hlease, hlast, hexpy⟩ :=
    h
  refine ⟨before, claim, later ++ [e], command, locked, by simp, hcmd, hclaim,
    hown.trans hlease, ?_, ?_⟩
  · intro e' he'
    rcases List.mem_append.mp he' with he' | he'
    · exact hlast e' he'
    · rw [List.mem_singleton.mp he']
      exact hclaims
  · have hsame : expiry = claim.label.now + seconds command.leaseSeconds +
        extensions id later := Option.some.inj (hold.symm.trans hexpy)
    rw [hnew, extensions_snoc, hsame, Int.add_assoc]

theorem QueueInv.lease (hinv : QueueInv w)
    (hjob : w.store.job? id = some job) (hrun : job.state = .running) :
    ∃ expiry, job.leaseExpiresAt = some expiry := by
  have hst := (hinv.row hjob).state
  simp only [StateInv, hrun] at hst
  obtain ⟨-, -, ⟨expiry, hexpy, -⟩, -⟩ := hst
  exact ⟨expiry, hexpy⟩

theorem extensionOf_ne_zero (h : extensionOf id call ≠ 0) :
    ∃ cmd res, call.command = .heartbeat id cmd ∧ call.outcome = .extended res ∧
      extensionOf id call = seconds cmd.leaseSeconds := by
  unfold extensionOf at h ⊢
  split at h
  · rename_i jobId cmd res hcmd hout
    split_ifs at h with hid
    · subst hid
      exact ⟨cmd, res, hcmd, hout, by simp⟩
    · exact absurd rfl h
  · exact absurd rfl h

theorem Step.leaseHistory {new : BackgroundJob} (h : Step w call w') (hinv : QueueInv w)
    (hearl : ∀ old, w.store.job? id = some old → old.state = .running →
      LeaseHistory id old trace)
    (hnew : w'.store.job? id = some new) (hrun : new.state = .running) :
    LeaseHistory id new (trace ++ [⟨w, call, w'⟩]) := by
  by_cases hclaims : claimsJob id call = true
  · obtain ⟨res, hout, rfl⟩ := claimsJob_eq_true hclaims
    obtain ⟨cmd, locked, old, row, hcmd, -, -, hrow, -, ha⟩ :=
      step_claimed hinv.keyed h hout
    obtain rfl := Option.some.inj (hnew.symm.trans ha)
    refine ⟨trace, ⟨w, call, w'⟩, [], cmd, locked, rfl, hcmd, hclaims, ?_, by simp, ?_⟩
    · rw [hrow]
      rfl
    · rw [hrow, extensions_nil, Int.add_zero]
      rfl
  · rw [Bool.not_eq_true] at hclaims
    by_cases hextends : extensionOf id call = 0
    · obtain ⟨emitted, heff⟩ := step_effect hinv.keyed h
      obtain ⟨event, hchg, -⟩ := heff.rows id
      have hid : ∀ old, w.store.job? id = some old → old.id = id := fun old hold =>
        id_of_job? hold
      rw [hnew] at hchg
      generalize hb : w.store.job? id = before at hchg
      cases hchg with
      | unchanged =>
        obtain ⟨expiry, hexpy⟩ := hinv.lease hb hrun
        refine (hearl new hb hrun).snoc hclaims rfl hexpy ?_
        rw [hexpy, hextends, Int.add_zero]
      | @claimed old cmd locked _ hout _ =>
        have hsame : (claimed call.now cmd.workerId
            (call.now + seconds cmd.leaseSeconds) old).id = id := hid old hb
        simp [claimsJob, hout, response, hsame] at hclaims
      | @extended old cmd expiry hcmd hout _ =>
        have hpos := seconds_pos (show 0 < cmd.leaseSeconds by
          have := cmd.leaseSeconds_ge
          omega)
        rw [extensionOf, hcmd, hout] at hextends
        simp only [if_true] at hextends
        omega
      | created | completed | retryWait | retryParked | canceled | reclaimed | reclaimParked =>
        cases hrun
    · obtain ⟨cmd, res, hcmd, hout, hsecs⟩ := extensionOf_ne_zero hextends
      obtain ⟨old, expiry, hold, hholds, ha⟩ := step_extended h hcmd hout
      obtain rfl := Option.some.inj (hnew.symm.trans ha)
      refine (hearl old hold hholds.running).snoc hclaims rfl hholds.expires ?_
      rw [hsecs]
      rfl

/-- The lease of every running row ends when its history says, and from then on
`reclaim_expired` selects the row. -/
theorem lease_expiry_of_run (hrun : QueueRun owners start trace w) {job : BackgroundJob}
    (hjob : w.store.job? id = some job) (hrunning : job.state = .running) :
    LeaseHistory id job trace ∧
      ∀ expiry, job.leaseExpiresAt = some expiry → ∀ now, expiry ≤ now →
        ∀ limit, w.store.jobs.length ≤ limit → job ∈ reclaimBatch w.store now limit [] := by
  have key : QueueInv w ∧ ∀ job, w.store.job? id = some job → job.state = .running →
      LeaseHistory id job trace := by
    refine hrun.invariant (I := fun trace w => QueueInv w ∧
      ∀ job, w.store.job? id = some job → job.state = .running → LeaseHistory id job trace)
      ⟨queueInv_empty owners start, by simp [Store.empty, Store.job?, Table.lookup]⟩ ?_
    rintro trace s call t ⟨hinv, hearlier⟩ h
    exact ⟨h.queueInv hinv, fun new hnew hrunning => h.leaseHistory hinv hearlier hnew hrunning⟩
  refine ⟨key.2 job hjob hrunning, ?_⟩
  intro expiry hexpiry now hnow limit hlimit
  have hselected : job ∈ w.store.jobs.filter fun row =>
      reclaimable now row && !([] : List Nat).contains row.id := by
    rw [List.mem_filter]
    exact ⟨Table.mem_of_lookup hjob, by simp [reclaimable, hrunning, hexpiry, hnow]⟩
  unfold reclaimBatch
  rw [List.take_of_length_le]
  · exact (List.mem_insertionSort _).mpr hselected
  · rw [List.length_insertionSort]
    exact (List.length_filter_le _ _).trans hlimit

/-- The sample run of a claim and two heartbeats at the instant of the claim. -/
theorem lease_expiry_after_heartbeats :
    let run := sampleRun [(0, .enqueue 1 sampleEnqueue "review-7"), (5, .claim sampleClaim []),
      (5, .heartbeat 1 sampleHeartbeat), (5, .heartbeat 1 sampleHeartbeat)]
    ∃ job, run.2.store.job? 1 = some job ∧ job.leaseExpiresAt = some (5 + seconds 360) ∧
      LeaseHistory 1 job run.1 := by
  intro run
  have hrun := queueRun_sampleRun [(0, .enqueue 1 sampleEnqueue "review-7"),
    (5, .claim sampleClaim []), (5, .heartbeat 1 sampleHeartbeat),
    (5, .heartbeat 1 sampleHeartbeat)] (by decide)
  have hjob : run.2.store.job? 1 = some (extended 5 (5 + seconds 360) (claimed 5 "worker-a"
      (5 + seconds 120) (newJob 1 1 sampleEnqueue "review-7" 0))) := by
    decide
  exact ⟨_, hjob, rfl, (lease_expiry_of_run hrun hjob rfl).1⟩

/-- One heartbeat is enough to outlive the lease that it asks for: the holder's
latest success is a heartbeat for 120 seconds at 5, and neither that lease nor
a reclaim at its end frees the job. -/
theorem heartbeat_outlives_its_lease :
    let run := sampleRun [(0, .enqueue 1 sampleEnqueue "review-7"), (5, .claim sampleClaim []),
      (5, .heartbeat 1 sampleHeartbeat)]
    QueueRun [1] 0 run.1 run.2 ∧
      (∃ e, run.1.getLast? = some e ∧ e.label.now = 5 ∧
        e.label.command = .heartbeat 1 sampleHeartbeat ∧ e.label.outcome.succeeded = true) ∧
      (∃ job expiry, run.2.store.job? 1 = some job ∧ job.state = .running ∧
        job.leaseExpiresAt = some expiry ∧
        ¬expiry ≤ 5 + seconds sampleHeartbeat.leaseSeconds) ∧
      ∀ limit locked, reclaimBatch run.2.store (5 + seconds sampleHeartbeat.leaseSeconds)
        limit locked = [] := by
  intro run
  have hjob : run.2.store.job? 1 = some (extended 5 (5 + seconds 240) (claimed 5 "worker-a"
      (5 + seconds 120) (newJob 1 1 sampleEnqueue "review-7" 0))) := by
    decide
  refine ⟨queueRun_sampleRun _ (by decide), ⟨run.1[2], rfl, rfl, rfl, rfl⟩,
    ⟨_, _, hjob, rfl, rfl, by decide⟩, ?_⟩
  intro limit locked
  have hnone : (run.2.store.jobs.filter fun job =>
      reclaimable (5 + seconds sampleHeartbeat.leaseSeconds) job &&
        !locked.contains job.id) = [] := by
    rw [List.filter_eq_nil_iff]
    intro job hmem
    have hover : reclaimable (5 + seconds sampleHeartbeat.leaseSeconds) job = false := by
      revert job
      decide
    simp [hover]
  unfold reclaimBatch
  rw [hnone]
  exact List.take_nil

end TamForge.Jobs
