import TamForge.Jobs.Proofs.Idempotency

/-!
# Lease exclusivity

A lease command succeeds only for the worker named in a lease that is still
live.  The guard of `_running_job`, the filter of `claim` and the filter of
`reclaim_expired` are complementary, so a worker that lost a job stays locked
out of it until it claims the job again.
-/

namespace TamForge.Jobs

open Models Notifications ProofSupport

variable {w w' : World} {call : Call} {id : Nat} {owners : List Nat} {start now : Instant}
  {trace later : List (Transition World Call)} {s : Store} {job old : BackgroundJob}
  {workerId : String}

/-! ## Lease commands -/

/-- The job and the worker of a `heartbeat`, `complete` or `retry`. -/
def Command.lease? : Command → Option (Nat × String)
  | .heartbeat jobId command => some (jobId, command.workerId)
  | .complete jobId command => some (jobId, command.workerId)
  | .retry jobId command => some (jobId, command.workerId)
  | .enqueue .. | .claim .. | .cancel .. | .reclaimExpired .. => none

/-- The call returned instead of raising. -/
def Outcome.succeeded : Outcome → Bool
  | .raised _ => false
  | _ => true

theorem exec_lease_holds {cmd : Command} {out : Outcome} {s' : Store}
    (hlease : cmd.lease? = some (id, workerId))
    (hexec : exec s now cmd = (out, s')) (hsucceeded : out.succeeded = true) :
    ∃ job expiry, s.job? id = some job ∧ Holds job workerId now expiry := by
  rcases exec_cases hexec with ⟨error, rfl, -⟩ | hcom
  · cases hsucceeded
  · cases hcom with
    | heartbeat hok =>
      obtain ⟨job, expiry, hjob, hholds, -⟩ := heartbeat_ok hok
      cases hlease
      exact ⟨job, expiry, hjob, hholds⟩
    | complete hok =>
      obtain ⟨job, expiry, hjob, hholds, -⟩ := complete_ok hok
      cases hlease
      exact ⟨job, expiry, hjob, hholds⟩
    | retry hok =>
      obtain ⟨job, expiry, hjob, hholds, -⟩ := retry_ok hok
      cases hlease
      exact ⟨job, expiry, hjob, hholds⟩
    | enqueue | claim | cancel | reclaimExpired => cases hlease

theorem runningJob_conflict (hjob : s.job? id = some job)
    (hlost : ∀ expiry, ¬Holds job workerId now expiry) :
    ∃ message, runningJob s now id workerId = .error (.conflict message) := by
  unfold runningJob
  rw [hjob]
  dsimp only
  split_ifs with hlease hexp
  · exact ⟨_, rfl⟩
  · exact ⟨_, rfl⟩
  · exfalso
    simp only [ne_eq, not_or, not_not] at hlease
    cases hexpy : job.leaseExpiresAt with
    | none => simp [hexpy] at hexp
    | some expiry =>
      exact hlost expiry ⟨hlease.1, hlease.2, hexpy, by simpa [hexpy] using hexp⟩

theorem exec_lease_conflict {cmd : Command}
    (hlease : cmd.lease? = some (id, workerId)) (hjob : s.job? id = some job)
    (hlost : ∀ expiry, ¬Holds job workerId now expiry) :
    ∃ message, exec s now cmd = (.raised (.conflict message), s) := by
  obtain ⟨message, hgrd⟩ := runningJob_conflict hjob hlost
  refine ⟨message, ?_⟩
  cases cmd with
  | heartbeat jobId cmd =>
    cases hlease
    simp only [exec, heartbeat, hgrd]
    rfl
  | complete jobId cmd =>
    cases hlease
    simp only [exec, complete, hgrd]
    rfl
  | retry jobId cmd =>
    cases hlease
    simp only [exec, retry, hgrd]
    rfl
  | enqueue | claim | cancel | reclaimExpired => cases hlease

/-! ## Losing a lease -/

/-- From now on the worker has no live lease on the job: it is not running, or
runs for someone else, or the worker's lease is over. -/
def LockedOut (id : Nat) (workerId : String) (w : World) : Prop :=
  ∃ job, w.store.job? id = some job ∧
    (job.state = .running → job.leaseOwner = some workerId →
      ∃ expiry, job.leaseExpiresAt = some expiry ∧ expiry ≤ w.clock)

theorem LockedOut.not_holds (h : LockedOut id workerId w) (hnow : w.clock ≤ now) :
    ∃ job, w.store.job? id = some job ∧ ∀ expiry, ¬Holds job workerId now expiry := by
  obtain ⟨job, hjob, hexp⟩ := h
  refine ⟨job, hjob, ?_⟩
  intro expiry hholds
  obtain ⟨stored, hsto, hover⟩ := hexp hholds.running hholds.owner
  have hsame : stored = expiry := Option.some.inj (hsto.symm.trans hholds.expires)
  have hlive := hholds.live
  rw [← hsame] at hlive
  exact absurd (hover.trans hnow) (not_le.mpr hlive)

def claimsFor (id : Nat) (workerId : String) (call : Call) : Prop :=
  claimsJob id call = true ∧
    ∃ command locked, call.command = .claim command locked ∧ command.workerId = workerId

theorem Step.lockedOut (h : Step w call w') (hinv : QueueInv w)
    (hlock : LockedOut id workerId w) (hclaim : ¬claimsFor id workerId call) :
    LockedOut id workerId w' := by
  obtain ⟨job, hjob, hexp⟩ := hlock
  obtain ⟨new, event, hnew, hchg⟩ := h.row hinv hjob
  refine ⟨new, hnew, ?_⟩
  rw [h.2.1]
  cases hchg with
  | unchanged =>
    intro hrun hown
    obtain ⟨expiry, hexpy, hover⟩ := hexp hrun hown
    exact ⟨expiry, hexpy, hover.trans h.1⟩
  | @claimed _ command locked hcmd hout _ =>
    intro _ hown
    refine absurd ⟨?_, command, locked, hcmd, Option.some.inj hown⟩ hclaim
    have hid : job.id = id := id_of_job? hjob
    simp [claimsJob, hout, response, claimed, hid]
  | @extended _ command expiry _ _ hholds =>
    intro hrun hown
    obtain ⟨stored, hsto, hover⟩ := hexp hrun hown
    have hsame : stored = expiry := Option.some.inj (hsto.symm.trans hholds.expires)
    have hlive := hholds.live
    rw [← hsame] at hlive
    exact absurd (hover.trans h.1) (not_le.mpr hlive)
  | completed | retryWait | retryParked | canceled | reclaimed | reclaimParked =>
    intro hrun
    cases hrun

theorem QueueInv.lockedOut_run {t : World} (hinv : QueueInv w) (hrun : Run Step w later t)
    (hlock : LockedOut id workerId w)
    (hclaim : ∀ e ∈ later, ¬claimsFor id workerId e.label) :
    LockedOut id workerId t := by
  have key : QueueInv t ∧
      ((∀ e ∈ later, ¬claimsFor id workerId e.label) → LockedOut id workerId t) := by
    refine hrun.invariant (I := fun later t => QueueInv t ∧
      ((∀ e ∈ later, ¬claimsFor id workerId e.label) → LockedOut id workerId t))
      ⟨hinv, fun _ => hlock⟩ ?_
    rintro later s call t ⟨hs, hearl⟩ h
    refine ⟨h.queueInv hs, ?_⟩
    intro hnone
    exact h.lockedOut hs (hearl fun e he => hnone e (List.mem_append_left _ he))
      (hnone ⟨s, call, t⟩ (by simp))
  exact key.2 hclaim

/-- The ways to lose a job, each with the world right after: the lease ran out
at a clock reading, or a call reclaimed the job, canceled it, or claimed it for
another worker. -/
inductive Loses (id : Nat) (workerId : String) (w : World) : World → Prop
  | expired {job : BackgroundJob} {expiry now : Instant} :
      w.clock ≤ now → w.store.job? id = some job → job.leaseOwner = some workerId →
      job.leaseExpiresAt = some expiry → expiry ≤ now →
      Loses id workerId w ⟨w.store, now⟩
  | reclaimed {call : Call} {limit : Nat} {locked : List Nat} {old new : BackgroundJob}
      {w' : World} :
      Step w call w' → call.command = .reclaimExpired limit locked →
      w.store.job? id = some old → w'.store.job? id = some new → new ≠ old →
      Loses id workerId w w'
  | canceled {call : Call} {result : JobResponse} {w' : World} :
      Step w call w' → call.outcome = .canceled result → result.id = id →
      Loses id workerId w w'
  | claimed {call : Call} {command : ClaimJobCommand} {locked : List Nat}
      {result : JobResponse} {w' : World} :
      Step w call w' → call.command = .claim command locked →
      command.workerId ≠ workerId → call.outcome = .claimed (some result) →
      result.id = id → Loses id workerId w w'

theorem QueueInv.advance (hinv : QueueInv w) (hnow : w.clock ≤ now) :
    QueueInv ⟨w.store, now⟩ :=
  { hinv with rows := fun job hjob => (hinv.rows job hjob).mono hnow }

theorem step_canceled {res : JobResponse} (h : Step w call w')
    (hout : call.outcome = .canceled res) :
    ∃ job, w'.store.job? res.id = some job ∧ job.state = .canceled := by
  rcases step_cases h with ⟨error, hraised, -⟩ | hcom
  · rw [hraised] at hout
    cases hout
  · rw [hout] at hcom
    generalize call.command = command at hcom
    cases hcom with
    | @cancel ownerId jobId _ _ hok =>
      obtain ⟨job, hjob, -, ⟨hst, rfl, hsame⟩ | ⟨-, rfl, hstore⟩⟩ := cancel_ok hok
      · refine ⟨job, ?_, hst⟩
        obtain rfl := id_of_job? hjob
        rw [hsame]
        exact hjob
      · refine ⟨canceled call.now job, ?_, rfl⟩
        obtain rfl := id_of_job? hjob
        have hident : ∀ row, identity (canceled call.now row) = identity row := fun _ => rfl
        rw [hstore, job?_emit]
        exact (job?_updateJob_self hident).trans (by rw [hjob]; rfl)

theorem Loses.lockedOut (h : Loses id workerId w w') (hinv : QueueInv w) :
    QueueInv w' ∧ LockedOut id workerId w' := by
  cases h with
  | @expired job expiry now hnow hjob hown hexpy hover =>
    exact ⟨hinv.advance hnow, job, hjob, fun _ _ => ⟨expiry, hexpy, hover⟩⟩
  | @reclaimed call limit locked old new _ hstep hcmd hold hnew hne =>
    refine ⟨hstep.queueInv hinv, new, hnew, ?_⟩
    obtain ⟨after, event, ha, hchg⟩ := hstep.row hinv hold
    obtain rfl := Option.some.inj (hnew.symm.trans ha)
    intro hrun
    cases hchg with
    | unchanged => exact absurd rfl hne
    | claimed ho | extended ho | completed ho | retryWait ho
    | retryParked ho | canceled ho =>
      rw [hcmd] at ho
      cases ho
    | reclaimed | reclaimParked => cases hrun
  | @canceled call result _ hstep hout hid =>
    obtain ⟨job, hjob, hst⟩ := step_canceled hstep hout
    rw [hid] at hjob
    refine ⟨hstep.queueInv hinv, job, hjob, ?_⟩
    intro hrun
    rw [hst] at hrun
    cases hrun
  | @claimed call command locked result _ hstep hcmd hne hout hid =>
    obtain ⟨command', locked', old, new, hcmd', -, -, hnew, -, ha⟩ :=
      step_claimed hinv.keyed hstep hout
    rw [hid] at ha
    refine ⟨hstep.queueInv hinv, new, ha, ?_⟩
    intro _ hown
    rw [hcmd] at hcmd'
    cases hcmd'
    rw [hnew] at hown
    exact absurd (Option.some.inj hown) hne

/-! ## Ending a job -/

def ended (row : Option BackgroundJob) : Bool :=
  row.any fun job => job.state.isTerminal

def endsJob (id : Nat) (e : Transition World Call) : Bool :=
  !ended (e.before.store.job? id) && ended (e.after.store.job? id)

def completesJob (id : Nat) (call : Call) : Bool :=
  match call.outcome with
  | .completed job => job.id == id
  | _ => false

theorem Step.ended (h : Step w call w') (hinv : QueueInv w)
    (hend : ended (w.store.job? id) = true) : ended (w'.store.job? id) = true := by
  cases hold : w.store.job? id with
  | none =>
    rw [hold] at hend
    cases hend
  | some old =>
    rw [hold] at hend
    obtain ⟨new, event, hnew, hchg⟩ := h.row hinv hold
    rw [hnew, hchg.terminal hend]
    exact hend

theorem QueueRun.countP_endsJob (hrun : QueueRun owners start trace w) (id : Nat) :
    trace.countP (endsJob id) = if ended (w.store.job? id) then 1 else 0 := by
  have key : QueueInv w ∧
      trace.countP (endsJob id) = if Jobs.ended (w.store.job? id) then 1 else 0 := by
    refine hrun.invariant (I := fun trace w => QueueInv w ∧
      trace.countP (endsJob id) = if Jobs.ended (w.store.job? id) then 1 else 0)
      ⟨queueInv_empty owners start, rfl⟩ ?_
    rintro trace s call t ⟨hinv, hcnt⟩ h
    refine ⟨h.queueInv hinv, ?_⟩
    rw [List.countP_append, hcnt, List.countP_singleton]
    have hkept : Jobs.ended (s.store.job? id) = true → Jobs.ended (t.store.job? id) = true :=
      h.ended hinv
    cases hb : Jobs.ended (s.store.job? id) <;>
      cases ha : Jobs.ended (t.store.job? id) <;>
      simp_all [endsJob]
  exact key.2

theorem step_completed {res : JobResponse} (h : Step w call w')
    (hout : call.outcome = .completed res) :
    ∃ old, w.store.job? res.id = some old ∧ old.state = .running ∧
      w'.store.job? res.id = some (completed call.now old) := by
  rcases step_cases h with ⟨error, hraised, -⟩ | hcom
  · rw [hraised] at hout
    cases hout
  · rw [hout] at hcom
    generalize call.command = command at hcom
    cases hcom with
    | @complete jobId command _ _ hok =>
      obtain ⟨old, expiry, hold, hholds, rfl, hstore⟩ := complete_ok hok
      obtain rfl := id_of_job? hold
      refine ⟨old, hold, hholds.running, ?_⟩
      have hident : ∀ row, identity (completed call.now row) = identity row := fun _ => rfl
      rw [hstore, job?_emit]
      exact (job?_updateJob_self hident).trans (by rw [hold]; rfl)

theorem Step.endsJob_of_completesJob (h : Step w call w')
    (hcompletes : completesJob id call = true) : endsJob id ⟨w, call, w'⟩ = true := by
  unfold completesJob at hcompletes
  split at hcompletes
  · rename_i result hout
    obtain ⟨old, hold, hrun, hnew⟩ := step_completed h hout
    rw [beq_iff_eq.mp hcompletes] at hold hnew
    simp [endsJob, Jobs.ended, hold, hnew, hrun, completed, JobState.isTerminal]
  · cases hcompletes

/-- Lease exclusivity in every run.  At any time the lease commands on a job
that can succeed all belong to one worker; a worker that lost a job gets
`JobConflict` from every lease command on it, without any change, until it
claims the job again; and a job ends at most once and completes at most once. -/
theorem leases_exclusive (hrun : QueueRun owners start trace w) :
    (∀ now id, ∀ a b : Command, ∀ v u,
      a.lease? = some (id, v) → b.lease? = some (id, u) →
      (exec w.store now a).1.succeeded = true →
      (exec w.store now b).1.succeeded = true → v = u) ∧
    (∀ id v lost, Loses id v w lost → ∀ later final, Run Step lost later final →
      (∀ e ∈ later, ¬claimsFor id v e.label) →
      ∀ now, final.clock ≤ now → ∀ command : Command, command.lease? = some (id, v) →
      ∃ message, exec final.store now command =
        (.raised (.conflict message), final.store)) ∧
    ∀ id, trace.countP (endsJob id) ≤ 1 ∧
      (trace.countP fun e => completesJob id e.label) ≤ 1 := by
  have hinv := hrun.queueInv
  refine ⟨?_, ?_, ?_⟩
  · intro now id a b v u ha hb hasucceeds hbsucceeds
    obtain ⟨job, expiry, hjob, hholds⟩ := exec_lease_holds ha rfl hasucceeds
    obtain ⟨job', expiry', hjob', hholds'⟩ := exec_lease_holds hb rfl hbsucceeds
    obtain rfl := Option.some.inj (hjob.symm.trans hjob')
    exact Option.some.inj (hholds.owner.symm.trans hholds'.owner)
  · intro id v lost hloses later final hlater hclaim now hnow command hlease
    obtain ⟨hlostInv, hlocked⟩ := hloses.lockedOut hinv
    obtain ⟨job, hjob, hnot⟩ :=
      (hlostInv.lockedOut_run hlater hlocked hclaim).not_holds hnow
    exact exec_lease_conflict hlease hjob hnot
  · intro id
    have hends : trace.countP (endsJob id) ≤ 1 := by
      rw [hrun.countP_endsJob]
      split <;> omega
    refine ⟨hends, le_trans (List.countP_mono_left ?_) hends⟩
    intro e he hcompletes
    obtain ⟨-, hstep, -, -⟩ := hrun.transition he
    exact hstep.endsJob_of_completesJob hcompletes

/-- A late completion of a worker whose lease ran out is refused. -/
theorem late_complete_conflicts :
    let run := sampleRun [(0, .enqueue 1 sampleEnqueue "review-7"), (5, .claim sampleClaim [])]
    ∃ message, exec run.2.store (5 + seconds 120) (.complete 1 sampleComplete) =
      (.raised (.conflict message), run.2.store) := by
  intro run
  have hrun := queueRun_sampleRun
    [(0, .enqueue 1 sampleEnqueue "review-7"), (5, .claim sampleClaim [])] (by decide)
  have hjob : run.2.store.job? 1 = some (claimed 5 "worker-a" (5 + seconds 120)
      (newJob 1 1 sampleEnqueue "review-7" 0)) := by
    decide
  have hloses : Loses 1 "worker-a" run.2 ⟨run.2.store, 5 + seconds 120⟩ :=
    .expired (by decide) hjob rfl rfl (le_refl _)
  exact (leases_exclusive hrun).2.1 1 "worker-a" _ hloses [] _ Run.refl (by simp) _
    (le_refl _) (.complete 1 sampleComplete) rfl

end TamForge.Jobs
