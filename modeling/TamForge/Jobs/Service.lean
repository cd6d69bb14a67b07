import TamForge.Jobs.Proofs.Outbox

/-!
# Enqueueing through the service

`JobService.enqueue` checks its arguments and delegates.  For a well-formed
request by a known owner, a healthy database always ends with a job under the
key: the new one, or the one that is already there.
-/

namespace TamForge.Jobs

open Models Notifications ProofSupport

def JobService.enqueue (s : Store) (now : Instant) (ownerId : Nat) (command : EnqueueJobCommand)
    (idempotencyKey : String) : Except JobError (EnqueueResult × Store) :=
  if ownerId = 0 then
    .error (.invalidRequest "owner is invalid")
  else if safeKey idempotencyKey = false then
    .error (.invalidRequest "Idempotency-Key is invalid")
  else
    Jobs.enqueue s now ownerId command idempotencyKey

theorem JobService.enqueue_ok {s s' : Store} {now : Instant} {ownerId : Nat}
    {command : EnqueueJobCommand} {key : String} {res : EnqueueResult}
    (h : JobService.enqueue s now ownerId command key = .ok (res, s')) :
    Jobs.enqueue s now ownerId command key = .ok (res, s') := by
  unfold JobService.enqueue at h
  split at h
  · cases h
  · split at h
    · cases h
    · exact h

/-! ## Safe keys and payloads -/

theorem isKeyChar_of_isDigit {c : Char} (hc : c.isDigit = true) : isKeyChar c = true := by
  simp [isKeyChar, Char.isAlphanum, hc]

theorem safeKey_of_chars {text : String} (first : Char) (rest : List Char)
    (htext : text.toList = first :: rest) (hfst : first.isAlphanum = true)
    (hrest : rest.all isKeyChar = true) (hlen : rest.length ≤ 127) :
    safeKey text = true := by
  simp only [safeKey, matchesPattern, htext, Bool.and_eq_true, decide_eq_true_eq]
  exact ⟨⟨hfst, hrest⟩, hlen⟩

/-- An identity column prints with at most nineteen digits. -/
theorem length_identity_le {id : Nat} (hid : id ≤ bigintMax) :
    (toString id).toList.length ≤ 19 := by
  have hbound : id < 10 ^ 19 := by
    unfold bigintMax at hid
    omega
  rw [String.length_toList]
  exact Keys.length_toString_le (by omega) hbound

theorem safeKey_eventKey_queued {id : Nat} (hid : id ≤ bigintMax) :
    safeKey (Store.eventKey id .queued 0) = true := by
  have hdigits := Keys.all_toString (p := isKeyChar) (fun _ => isKeyChar_of_isDigit) id
  have hshort := length_identity_le hid
  refine safeKey_of_chars 'j' ("ob:".toList ++ (toString id).toList ++
    ":background_job.queued:0".toList) ?_ (by decide) ?_ ?_
  · simp [Store.eventKey, JobEvent.text]
  · rw [List.all_append, List.all_append, hdigits]
    decide
  · have hearl : "ob:".toList.length = 3 := by decide
    have hsuffix : ":background_job.queued:0".toList.length = 24 := by decide
    rw [List.length_append, List.length_append, hearl, hsuffix]
    omega

theorem validateReferencePayloadV1_of_ids {subject : Nat} (related : Option Nat)
    (hsubj : 0 < subject ∧ subject ≤ bigintMax)
    (hrelated : ∀ id ∈ related, 0 < id ∧ id ≤ bigintMax) :
    validateReferencePayloadV1 ⟨1, subject, related⟩ = true := by
  have hshort : ∀ id : Nat, id ≤ bigintMax → (toString id).length ≤ 19 := by
    intro id hid
    rw [← String.length_toList]
    exact length_identity_le hid
  have hone : (toString 1).length = 1 := by decide
  have hfits : jsonSize (PayloadFields.fields ⟨1, subject, related⟩) ≤ 1024 := by
    have htwo := hshort subject hsubj.2
    cases related with
    | none =>
      simp only [PayloadFields.fields, jsonSize, Option.toList, List.map_cons, List.map_nil,
        List.append_nil, List.sum_cons, List.sum_nil, List.length_cons, List.length_nil,
        show "schema_version".utf8ByteSize = 14 from rfl,
        show "subject_id".utf8ByteSize = 10 from rfl, hone]
      omega
    | some id =>
      have hthree := hshort id (hrelated id rfl).2
      simp only [PayloadFields.fields, jsonSize, Option.toList, List.map_cons, List.map_nil,
        List.cons_append, List.nil_append, List.sum_cons, List.sum_nil, List.length_cons,
        List.length_nil, show "schema_version".utf8ByteSize = 14 from rfl,
        show "subject_id".utf8ByteSize = 10 from rfl,
        show "related_id".utf8ByteSize = 10 from rfl, hone]
      omega
  simp only [validateReferencePayloadV1, hfits, decide_true, Bool.true_and, Bool.and_eq_true,
    beq_iff_eq, Option.all_eq_true, positiveId, decide_eq_true_eq, true_and]
  exact ⟨hsubj, hrelated⟩

/-! ## Admission -/

section Admission

variable {w : World} {s' : Store} {ownerId : Nat} {command : EnqueueJobCommand} {key : String}
  {now : Instant} {job : BackgroundJob}

/-- A job appended under a free key is found there. -/
theorem jobByKey?_append_self {s : Store} (job : BackgroundJob)
    (hfree : s.jobByKey? job.ownerId job.idempotencyKey = none) :
    { s with jobs := s.jobs ++ [job] }.jobByKey? job.ownerId job.idempotencyKey = some job := by
  unfold Store.jobByKey? at hfree ⊢
  rw [List.find?_append, hfree]
  simp

/-- A healthy database refuses a new job only when identities have run out. -/
theorem insertJob_accepts (hkey : safeKey key = true)
    (hpay : validateReferencePayloadV1 command.payload.modelDump = true)
    (hfree : w.store.jobByKey? ownerId key = none) (hid : w.store.nextJobId ≤ bigintMax)
    (now : Instant) :
    let job := newJob w.store.nextJobId ownerId command key now
    w.store.insertJob job =
      .ok { w.store with jobs := w.store.jobs ++ [job], nextJobId := w.store.nextJobId + 1 } := by
  intro job
  have hrow : validateBackgroundJob job = .ok () := (RowInv.newJob hpay).validate
  have hfst : raiseFirst [(!validateReferencePayloadV1 job.payload,
      JobError.model (.notificationContract "structured payload is invalid"))] = .ok () := by
    simp only [raiseFirst_eq_ok, List.mem_singleton, forall_eq, Bool.not_eq_false']
    exact hpay
  have hlast : raiseFirst [
      (decide (bigintMax < job.id), JobError.storageUnavailable),
      (!safeKey job.idempotencyKey, .checkViolation "idempotency_key_safe"),
      ((w.store.jobByKey? job.ownerId job.idempotencyKey).isSome,
        .uniqueViolation "uq_background_jobs_owner_idempotency")] = .ok () := by
    have hrange : ¬bigintMax < job.id := not_lt.mpr hid
    have hsafe : safeKey job.idempotencyKey = true := hkey
    have hunused : w.store.jobByKey? job.ownerId job.idempotencyKey = none := hfree
    simp [raiseFirst, hrange, hsafe, hunused]
  simp only [Store.insertJob, hfst, hrow, hlast]
  rfl

theorem statusEvent_accepts (s : Store) (now : Instant) (hid : 0 < job.id ∧ job.id ≤ bigintMax)
    (hcnt : job.attemptCount = 0)
    (hnew : ∀ e ∈ s.outbox, e.idempotencyKey ≠ Store.eventKey job.id .queued 0) :
    s.statusEvent job .queued now = .ok (s.emit job .queued now) := by
  have hpay := validateReferencePayloadV1_of_ids none hid (by simp)
  have hsafe := safeKey_eventKey_queued hid.2
  have hunused : (s.outbox.any fun e => e.ownerId == job.ownerId &&
      e.idempotencyKey == Store.eventKey job.id .queued job.attemptCount) = false := by
    rw [List.any_eq_false, hcnt]
    intro e he
    simp [hnew e he]
  rw [hcnt] at hunused
  simp [Store.statusEvent, Store.eventRow, raiseFirst, hpay, hunused, hcnt, hsafe]

/-- A healthy database that is asked to enqueue ends with a job under the key,
unless the identities have run out. -/
theorem enqueue_admits (hinv : QueueInv w) (houtbox : OutboxInv w.store)
    (hown : ownerId ∈ w.store.owners) (hpos : 0 < ownerId) (hkey : safeKey key = true)
    (hpay : validateReferencePayloadV1 command.payload.modelDump = true) (now : Instant) :
    (∃ res s', JobService.enqueue w.store now ownerId command key = .ok (res, s') ∧
        (s'.jobByKey? ownerId key).isSome) ∨
      (∃ error, JobService.enqueue w.store now ownerId command key = .error error ∧
        ((w.store.jobByKey? ownerId key).isSome ∨ bigintMax < w.store.nextJobId)) := by
  have hchk : JobService.enqueue w.store now ownerId command key =
      Jobs.enqueue w.store now ownerId command key := by
    rw [JobService.enqueue, if_neg (by omega), if_neg (by simp [hkey])]
  rw [hchk]
  cases hf : w.store.jobByKey? ownerId key with
  | some existing =>
    by_cases hsame : sameEnqueue existing command command.payload.modelDump = true
    · refine Or.inl ⟨⟨response existing, true⟩, w.store, ?_, by simp [hf]⟩
      simp [enqueue, hown, hf, hsame]
      rfl
    · refine Or.inr ⟨.conflict "Idempotency-Key was reused for another job", ?_,
        Or.inl (by simp)⟩
      simp [enqueue, hown, hf, hsame]
      rfl
  | none =>
    by_cases hid : w.store.nextJobId ≤ bigintMax
    · have hnew : ∀ e ∈ w.store.outbox,
          e.idempotencyKey ≠ Store.eventKey w.store.nextJobId .queued 0 := by
        refine houtbox.fresh ?_
        intro row hrow
        have hlt := hinv.keyed.fresh row (Table.mem_of_lookup hrow)
        have hsame : row.id = w.store.nextJobId := id_of_job? hrow
        omega
      let job := newJob w.store.nextJobId ownerId command key now
      let inserted : Store :=
        { w.store with jobs := w.store.jobs ++ [job], nextJobId := w.store.nextJobId + 1 }
      have hins : w.store.insertJob job = .ok inserted :=
        insertJob_accepts hkey hpay hf hid now
      have hst : inserted.statusEvent job .queued now = .ok (inserted.emit job .queued now) :=
        statusEvent_accepts inserted now ⟨hinv.next_pos, hid⟩ rfl hnew
      have henq : Jobs.enqueue w.store now ownerId command key =
          .ok (⟨response job, false⟩, inserted.emit job .queued now) := by
        simp only [enqueue, hown, not_true_eq_false, if_false, hf]
        exact bind_ok_iff.mpr ⟨inserted, hins, bind_ok_iff.mpr ⟨_, hst, rfl⟩⟩
      have hsto : (inserted.emit job .queued now).jobByKey? ownerId key = some job :=
        jobByKey?_append_self job hf
      exact Or.inl ⟨_, _, henq, by rw [hsto]; rfl⟩
    · refine Or.inr ?_
      cases hraised : Jobs.enqueue w.store now ownerId command key with
      | error error => exact ⟨error, rfl, Or.inr (not_le.mp hid)⟩
      | ok pair =>
        obtain ⟨-, ⟨job, hjob, -⟩ | ⟨-, -, hle, -⟩⟩ := enqueue_ok hraised
        · rw [hf] at hjob
          cases hjob
        · exact absurd hle hid

end Admission

end TamForge.Jobs
