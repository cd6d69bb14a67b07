import TamForge.Jobs.Proofs.Commands
import TamForge.ProofSupport.Keys

/-!
# The row invariant

`RowInv` is what every stored job satisfies at a clock reading.  It implies
the validator of the model, every `RowChange` keeps it, and every change of an
existing row is one the update validator accepts.
-/

namespace TamForge.Jobs

open Models Notifications ProofSupport

/-! ## Stored diagnostics and payloads fit -/

variable {details : ErrorDetails}

theorem validateErrorDetailsV1_of_bounds (hver : details.schemaVersion = 1)
    (hatt : ∀ attempt ∈ details.attempt, attempt ≤ 100)
    (hdelay : ∀ delay ∈ details.retryAfterSeconds, delay ≤ 86400)
    (hst : ∀ status ∈ details.httpStatus, 100 ≤ status ∧ status ≤ 599) :
    validateErrorDetailsV1 details = true := by
  obtain ⟨version, attempt, delay, status⟩ := details
  have hsize : ∀ n : Nat, n ≤ 86400 → (toString n).length ≤ 5 := fun n hn =>
    Keys.length_toString_le (by omega) (by omega)
  have hfits : jsonSize (ErrorDetails.fields ⟨version, attempt, delay, status⟩) ≤ 512 := by
    have hone := hsize version (by simp_all)
    have htwo : ∀ n ∈ attempt, (toString n).length ≤ 5 := fun n hn =>
      hsize n ((hatt n hn).trans (by omega))
    have hthree : ∀ n ∈ delay, (toString n).length ≤ 5 := fun n hn => hsize n (hdelay n hn)
    have hfour : ∀ n ∈ status, (toString n).length ≤ 5 := fun n hn =>
      hsize n ((hst n hn).2.trans (by omega))
    cases attempt <;> cases delay <;> cases status <;>
      simp only [ErrorDetails.fields, jsonSize, Option.toList, List.map_cons, List.map_nil,
        List.cons_append, List.nil_append, List.sum_cons, List.sum_nil, List.length_cons,
        List.length_nil, Option.mem_def, Option.some.injEq, forall_eq'] at htwo hthree hfour ⊢ <;>
      simp only [show "schema_version".utf8ByteSize = 14 from rfl,
        show "attempt".utf8ByteSize = 7 from rfl,
        show "retry_after_seconds".utf8ByteSize = 19 from rfl,
        show "http_status".utf8ByteSize = 11 from rfl] <;>
      omega
  simp only [validateErrorDetailsV1, hfits, decide_true, Bool.true_and, Bool.and_eq_true,
    beq_iff_eq, Option.all_eq_true, boundedInt, decide_eq_true_eq]
  exact ⟨⟨⟨hver, fun attempt h => ⟨Nat.zero_le _, hatt attempt h⟩⟩,
    fun delay h => ⟨Nat.zero_le _, hdelay delay h⟩⟩, hst⟩

/-! ## The invariant -/

def StateInv (job : BackgroundJob) : Prop :=
  match job.state with
  | .queued => job.leaseOwner = none ∧ job.leaseExpiresAt = none ∧
      job.completedAt = none ∧ job.attemptCount < job.maxAttempts
  | .running => 0 < job.attemptCount ∧ job.leaseOwner.isSome ∧
      (∃ expiry, job.leaseExpiresAt = some expiry ∧ job.updatedAt < expiry) ∧
      job.completedAt = none ∧ job.lastErrorCategory = none
  | .succeeded => 0 < job.attemptCount ∧ job.leaseOwner = none ∧
      job.leaseExpiresAt = none ∧ job.completedAt = some job.updatedAt ∧
      job.lastErrorCategory = none
  | .failed => 0 < job.attemptCount ∧ job.leaseOwner = none ∧
      job.leaseExpiresAt = none ∧ job.completedAt = some job.updatedAt ∧
      job.lastErrorCategory.isSome
  | .canceled => job.leaseOwner = none ∧ job.leaseExpiresAt = none ∧
      job.completedAt = some job.updatedAt ∧ job.lastErrorCategory = none

/-- What every stored row satisfies when the clock reads `clock`. -/
structure RowInv (clock : Instant) (job : BackgroundJob) : Prop where
  payload : validateReferencePayloadV1 job.payload = true
  version : job.payloadSchemaVersion = job.payload.schemaVersion
  attempts : job.attemptCount ≤ job.maxAttempts
  maxAttempts_pos : 1 ≤ job.maxAttempts
  maxAttempts_le : job.maxAttempts ≤ 100
  errors : job.lastErrorCategory.isNone = job.lastErrorDetails.isNone
  details : ∀ details ∈ job.lastErrorDetails, validateErrorDetailsV1 details = true
  created : job.createdAt ≤ job.updatedAt
  updated : job.updatedAt ≤ clock
  unstarted : job.startedAt = none ↔ job.attemptCount = 0
  started : ∀ started ∈ job.startedAt, job.createdAt ≤ started ∧ started ≤ job.updatedAt
  state : StateInv job

namespace RowInv

variable {clock now : Instant} {job old new : BackgroundJob} {call : Call} {id : Nat}
  {event : JobEvent}

theorem mono (h : RowInv clock job) (hclk : clock ≤ now) : RowInv now job :=
  { h with updated := h.updated.trans hclk }

theorem startedAt_cases (h : RowInv clock job) :
    (job.attemptCount = 0 ∧ job.startedAt = none) ∨
      ∃ started, job.attemptCount ≠ 0 ∧ job.startedAt = some started ∧
        job.createdAt ≤ started ∧ started ≤ job.updatedAt := by
  cases hstart : job.startedAt with
  | none => exact Or.inl ⟨h.unstarted.mp hstart, rfl⟩
  | some started =>
    refine Or.inr ⟨started, ?_, rfl, h.started started hstart⟩
    intro hzero
    rw [h.unstarted.mpr hzero] at hstart
    cases hstart

theorem error_cases (h : RowInv clock job) :
    (job.lastErrorCategory = none ∧ job.lastErrorDetails = none) ∨
      ∃ category details, job.lastErrorCategory = some category ∧
        job.lastErrorDetails = some details ∧ validateErrorDetailsV1 details = true := by
  have herrs := h.errors
  cases hcat : job.lastErrorCategory with
  | none =>
    rw [hcat] at herrs
    exact Or.inl ⟨rfl, Option.isNone_iff_eq_none.mp herrs.symm⟩
  | some category =>
    cases hdets : job.lastErrorDetails with
    | none => simp [hcat, hdets] at herrs
    | some details => exact Or.inr ⟨category, details, rfl, rfl, h.details details hdets⟩

theorem validate (h : RowInv clock job) : validateBackgroundJob job = .ok () := by
  rw [validateBackgroundJob, raiseFirst_eq_ok]
  have hlimits : decide (job.attemptCount ≤ job.maxAttempts) = true ∧
      boundedInt job.maxAttempts 1 100 = true := by
    simp [boundedInt, h.attempts, h.maxAttempts_pos, h.maxAttempts_le]
  have hmono : ¬job.updatedAt < job.createdAt := not_lt.mpr h.created
  have hst := h.state
  unfold StateInv at hst
  rcases h.startedAt_cases with ⟨hzero, hstart⟩ | ⟨started, hpos, hstart, ha, hb⟩ <;>
    rcases h.error_cases with ⟨hcat, hdets⟩ | ⟨category, details, hcat, hdets, hval⟩ <;>
    cases hs : job.state <;>
    simp only [hs] at hst
  all_goals
    simp_all [backgroundJobChecks, setBefore, h.payload, h.version]
  -- only a running row with a lease needs more than rewriting
  obtain ⟨-, -, ⟨expiry, hexpy, hlat⟩, -⟩ := hst
  simp [hexpy, hlat]

/-! ## Every change keeps it -/

theorem newJob {ownerId : Nat} {command : EnqueueJobCommand} {key : String}
    (hpay : validateReferencePayloadV1 command.payload.modelDump = true) :
    RowInv now (newJob id ownerId command key now) where
  payload := hpay
  version := rfl
  attempts := Nat.zero_le _
  maxAttempts_pos := command.maxAttempts_pos
  maxAttempts_le := command.maxAttempts_le
  errors := rfl
  details := by simp [Jobs.newJob]
  created := le_refl _
  updated := le_refl _
  unstarted := by simp [Jobs.newJob]
  started := by simp [Jobs.newJob]
  state := ⟨rfl, rfl, rfl, command.maxAttempts_pos⟩

variable {expiry : Instant}

theorem claimed {workerId : String} (h : RowInv clock job) (hclk : clock ≤ now)
    (hatts : job.attemptCount < job.maxAttempts) (hst : job.state = .queued)
    (hexpy : now < expiry) : RowInv now (claimed now workerId expiry job) := by
  have hnow := h.updated.trans hclk
  have hqueued := h.state
  simp only [StateInv, hst] at hqueued
  refine { payload := h.payload, version := h.version, attempts := hatts,
           maxAttempts_pos := h.maxAttempts_pos, maxAttempts_le := h.maxAttempts_le,
           errors := rfl, details := by simp [Jobs.claimed],
           created := h.created.trans hnow, updated := le_refl _,
           unstarted := by simp [Jobs.claimed], started := ?_, state := ?_ }
  · intro started hstart
    rcases h.startedAt_cases with ⟨-, hnone⟩ | ⟨first, -, hsome, ha, hb⟩
    · simp only [Jobs.claimed, hnone, Option.getD_none, Option.mem_def, Option.some.injEq]
        at hstart
      rw [← hstart]
      exact ⟨h.created.trans hnow, le_refl _⟩
    · simp only [Jobs.claimed, hsome, Option.getD_some, Option.mem_def, Option.some.injEq]
        at hstart
      rw [← hstart]
      exact ⟨ha, hb.trans hnow⟩
  · exact ⟨Nat.succ_pos _, rfl, ⟨expiry, rfl, hexpy⟩, hqueued.2.2.1, rfl⟩

theorem extended (h : RowInv clock job) (hclk : clock ≤ now) (hst : job.state = .running)
    (hexpy : now < expiry) : RowInv now (extended now expiry job) := by
  have hnow := h.updated.trans hclk
  have hrun := h.state
  simp only [StateInv, hst] at hrun
  obtain ⟨hpos, hown, -, hdone, herr⟩ := hrun
  refine { h with created := h.created.trans hnow, updated := le_refl _, started := ?_, state := ?_ }
  · intro started hstart
    exact ⟨(h.started started hstart).1, (h.started started hstart).2.trans hnow⟩
  · simp only [StateInv, Jobs.extended, hst]
    exact ⟨hpos, hown, ⟨expiry, rfl, hexpy⟩, hdone, herr⟩

/-- The changes that end an attempt share everything but the error and the
state they write. -/
theorem leave (h : RowInv clock job) (hclk : clock ≤ now)
    (hpay : new.payload = job.payload)
    (hver : new.payloadSchemaVersion = job.payloadSchemaVersion)
    (hatts : new.attemptCount = job.attemptCount)
    (hmax : new.maxAttempts = job.maxAttempts)
    (hcrt : new.createdAt = job.createdAt) (hupdated : new.updatedAt = now)
    (hstart : new.startedAt = job.startedAt)
    (herrs : (new.lastErrorCategory = none ∧ new.lastErrorDetails = none) ∨
      ∃ category details, new.lastErrorCategory = some category ∧
        new.lastErrorDetails = some details ∧ validateErrorDetailsV1 details = true)
    (hst : StateInv new) : RowInv now new := by
  have hnow := h.updated.trans hclk
  refine { payload := hpay ▸ h.payload, version := by rw [hver, hpay, h.version],
           attempts := by rw [hatts, hmax]; exact h.attempts,
           maxAttempts_pos := hmax ▸ h.maxAttempts_pos,
           maxAttempts_le := hmax ▸ h.maxAttempts_le, errors := ?_, details := ?_,
           created := by rw [hcrt, hupdated]; exact h.created.trans hnow,
           updated := hupdated.le,
           unstarted := by rw [hstart, hatts]; exact h.unstarted,
           started := ?_, state := hst }
  · rcases herrs with ⟨hcat, hdets⟩ | ⟨category, details, hcat, hdets, -⟩ <;>
      rw [hcat, hdets] <;> rfl
  · intro details hmem
    rcases herrs with ⟨-, hnone⟩ | ⟨-, stored, -, hsome, hval⟩
    · rw [hnone] at hmem
      cases hmem
    · rw [hsome] at hmem
      cases hmem
      exact hval
  · intro started hmem
    rw [hstart] at hmem
    rw [hcrt, hupdated]
    exact ⟨(h.started started hmem).1, (h.started started hmem).2.trans hnow⟩

theorem running (h : RowInv clock job) (hst : job.state = .running) :
    0 < job.attemptCount ∧ job.completedAt = none ∧ job.lastErrorCategory = none ∧
      job.lastErrorDetails = none := by
  have hrun := h.state
  simp only [StateInv, hst] at hrun
  obtain ⟨hpos, -, -, hdone, hcat⟩ := hrun
  refine ⟨hpos, hdone, hcat, ?_⟩
  have herrs := h.errors
  rw [hcat] at herrs
  exact Option.isNone_iff_eq_none.mp herrs.symm

theorem errorDetails_valid (h : RowInv clock job) (command : RetryJobCommand) :
    validateErrorDetailsV1 (errorDetails job.attemptCount command) = true := by
  apply validateErrorDetailsV1_of_bounds rfl
  · intro attempt hatt
    cases hatt
    exact h.attempts.trans h.maxAttempts_le
  · exact command.failure.retryAfterSeconds_le
  · exact command.failure.httpStatus_bounds

theorem reclaimDetails_valid (h : RowInv clock job) :
    validateErrorDetailsV1 (reclaimDetails job.attemptCount) = true := by
  apply validateErrorDetailsV1_of_bounds rfl
  · intro attempt hatt
    cases hatt
    exact h.attempts.trans h.maxAttempts_le
  · simp [reclaimDetails]
  · simp [reclaimDetails]

variable {category : ErrorCategory}

theorem requeued {availableAt : Instant} (h : RowInv clock job) (hclk : clock ≤ now)
    (hst : job.state = .running) (hatts : job.attemptCount < job.maxAttempts)
    (hdets : validateErrorDetailsV1 details = true) :
    RowInv now (requeued now availableAt category details job) :=
  h.leave hclk rfl rfl rfl rfl rfl rfl rfl
    (Or.inr ⟨category, details, rfl, rfl, hdets⟩)
    ⟨rfl, rfl, (h.running hst).2.1, hatts⟩

theorem parked (h : RowInv clock job) (hclk : clock ≤ now) (hst : job.state = .running)
    (hdets : validateErrorDetailsV1 details = true) :
    RowInv now (parked now category details job) :=
  h.leave hclk rfl rfl rfl rfl rfl rfl rfl
    (Or.inr ⟨category, details, rfl, rfl, hdets⟩)
    ⟨(h.running hst).1, rfl, rfl, rfl, rfl⟩

theorem completed (h : RowInv clock job) (hclk : clock ≤ now)
    (hst : job.state = .running) : RowInv now (completed now job) := by
  obtain ⟨hpos, -, hcat, hdets⟩ := h.running hst
  exact h.leave hclk rfl rfl rfl rfl rfl rfl rfl (Or.inl ⟨hcat, hdets⟩)
    ⟨hpos, rfl, rfl, rfl, hcat⟩

theorem canceled (h : RowInv clock job) (hclk : clock ≤ now) :
    RowInv now (canceled now job) :=
  h.leave hclk rfl rfl rfl rfl rfl rfl rfl (Or.inl ⟨rfl, rfl⟩) ⟨rfl, rfl, rfl, rfl⟩

end RowInv

theorem claimable_eq_true {now : Instant} {command : ClaimJobCommand} {job : BackgroundJob}
    (h : claimable now command job = true) :
    job.state = .queued ∧ job.availableAt ≤ now ∧ job.attemptCount < job.maxAttempts ∧
      job.kind ∈ command.kinds := by
  simpa [claimable, and_assoc] using h

theorem reclaimable_eq_true {now : Instant} {job : BackgroundJob}
    (h : reclaimable now job = true) :
    job.state = .running ∧ ∃ expiry, job.leaseExpiresAt = some expiry ∧ expiry ≤ now := by
  simpa [reclaimable, Option.any_eq_true] using h

theorem lt_add_seconds {now : Instant} {n : Nat} (hn : 5 ≤ n) : now < now + seconds n :=
  Int.lt_add_of_pos_right now (seconds_pos (by omega))

section Change

variable {clock : Instant} {call : Call} {id : Nat} {before after : Option BackgroundJob}
  {event : Option JobEvent}

theorem RowChange.rowInv (hchg : RowChange call id before after event)
    (hb : ∀ old ∈ before, RowInv clock old) (hclk : clock ≤ call.now) :
    ∀ new ∈ after, RowInv call.now new := by
  cases hchg with
  | unchanged =>
    intro new hnew
    exact (hb new hnew).mono hclk
  | created _ _ hpay _ =>
    rintro new ⟨⟩
    exact RowInv.newJob hpay
  | claimed _ _ hclm =>
    rintro new ⟨⟩
    obtain ⟨hst, -, hatts, -⟩ := claimable_eq_true hclm
    exact (hb _ rfl).claimed hclk hatts hst
      (lt_add_seconds (ClaimJobCommand.leaseSeconds_ge _))
  | extended _ _ hholds =>
    rintro new ⟨⟩
    refine (hb _ rfl).extended hclk hholds.running (hholds.live.trans ?_)
    exact lt_add_seconds (HeartbeatJobCommand.leaseSeconds_ge _)
  | completed _ _ hholds =>
    rintro new ⟨⟩
    exact (hb _ rfl).completed hclk hholds.running
  | retryWait _ _ hholds hatts _ =>
    rintro new ⟨⟩
    exact (hb _ rfl).requeued hclk hholds.running hatts
      ((hb _ rfl).errorDetails_valid _)
  | retryParked _ _ hholds =>
    rintro new ⟨⟩
    exact (hb _ rfl).parked hclk hholds.running ((hb _ rfl).errorDetails_valid _)
  | canceled _ _ _ =>
    rintro new ⟨⟩
    exact (hb _ rfl).canceled hclk
  | reclaimed _ hrecl hatts =>
    rintro new ⟨⟩
    exact (hb _ rfl).requeued hclk (reclaimable_eq_true hrecl).1 hatts
      (hb _ rfl).reclaimDetails_valid
  | reclaimParked _ hrecl _ =>
    rintro new ⟨⟩
    exact (hb _ rfl).parked hclk (reclaimable_eq_true hrecl).1
      (hb _ rfl).reclaimDetails_valid

/-- Every change of an existing row is one that the update validator accepts,
with lease expiry judged by the clock of the call. -/
theorem RowChange.validateUpdate {old new : BackgroundJob}
    (hchg : RowChange call id (some old) (some new) event)
    (hold : RowInv clock old) (hclk : clock ≤ call.now) (hne : new ≠ old) :
    validateBackgroundJobUpdate call.now old new = .ok () := by
  have hval := (hchg.rowInv (fun row hrow => by cases hrow; exact hold) hclk new rfl).validate
  have hmono : decide (call.now < old.updatedAt) = false := by
    simpa using hold.updated.trans hclk
  rw [validateBackgroundJobUpdate, bind_ok_iff]
  refine ⟨(), hval, raiseFirst_eq_ok.mpr ?_⟩
  cases hchg with
  | unchanged => exact absurd rfl hne
  | claimed _ _ hclm =>
    obtain ⟨hst, -, hatts, -⟩ := claimable_eq_true hclm
    have hqueued := hold.state
    simp only [StateInv, hst] at hqueued
    have hstart : old.startedAt.isSome = true →
        some (old.startedAt.getD call.now) = old.startedAt := by
      cases h : old.startedAt <;> simp
    simpa [backgroundJobUpdateChecks, hst, Jobs.claimed, JobState.isTerminal,
      JobState.transitions, hqueued.2.2.1, rewrites, hmono] using hstart
  | @extended _ command expiry _ _ hholds =>
    have hlonger : expiry ≤ expiry + seconds command.leaseSeconds :=
      (lt_add_seconds command.leaseSeconds_ge).le
    have hsame : ({ Jobs.extended call.now (expiry + seconds command.leaseSeconds) old with
        leaseExpiresAt := old.leaseExpiresAt, updatedAt := old.updatedAt } != old) = false :=
      bne_self_eq_false old
    simp only [backgroundJobUpdateChecks, hsame]
    simp [hholds.running, Jobs.extended, JobState.isTerminal, hholds.expires, rewrites,
      hlonger, seconds_nonneg, hmono]
  | completed _ _ hholds =>
    obtain ⟨-, hdone, -, -⟩ := hold.running hholds.running
    unfold Jobs.completed
    simp [backgroundJobUpdateChecks, hholds.running, JobState.isTerminal,
      JobState.transitions, hdone, rewrites, hmono]
  | @retryWait _ command expiry _ _ hholds _ hcat =>
    have hlat : call.now ≤ call.now + seconds (retryDelay old.attemptCount command.failure) :=
      Int.le_add_of_nonneg_right (seconds_nonneg _)
    unfold Jobs.requeued
    rcases hcat with hcat | hcat <;>
      simp [backgroundJobUpdateChecks, hholds.running, JobState.isTerminal,
        JobState.transitions, rewrites, hcat, hlat, hmono]
  | retryParked _ _ hholds =>
    obtain ⟨-, hdone, -, -⟩ := hold.running hholds.running
    unfold Jobs.parked
    simp [backgroundJobUpdateChecks, hholds.running, JobState.isTerminal,
      JobState.transitions, hdone, rewrites, hmono]
  | canceled _ _ hact =>
    have hdone : old.completedAt = none := by
      have hst := hold.state
      rcases hact with hact | hact <;> simp only [StateInv, hact] at hst
      · exact hst.2.2.1
      · exact hst.2.2.2.1
    unfold Jobs.canceled
    rcases hact with hact | hact <;>
      simp [backgroundJobUpdateChecks, hact, JobState.isTerminal,
        JobState.transitions, hdone, rewrites, hmono]
  | reclaimed _ hrecl _ =>
    obtain ⟨hrun, expiry, hexpy, hexp⟩ := reclaimable_eq_true hrecl
    unfold Jobs.requeued
    simp [backgroundJobUpdateChecks, hrun, JobState.isTerminal,
      JobState.transitions, rewrites, hexpy, hexp, hmono]
  | reclaimParked _ hrecl _ =>
    obtain ⟨hrun, -⟩ := reclaimable_eq_true hrecl
    obtain ⟨-, hdone, -, -⟩ := hold.running hrun
    unfold Jobs.parked
    simp [backgroundJobUpdateChecks, hrun, JobState.isTerminal,
      JobState.transitions, hdone, rewrites, hmono]

end Change

end TamForge.Jobs
