import TamForge.Jobs.Proofs.Lifecycle

/-!
# Status events

Every change of a job's state emits exactly one event, under a key that no
other event has.  The keys carry the attempt number only, so their uniqueness
rests on the history of a job: an attempt starts once and leaves `running`
once.
-/

namespace TamForge.Jobs

open Models Notifications ProofSupport

variable {w w' : World} {call : Call} {id : Nat} {owners : List Nat} {start now : Instant}
  {trace : List (Transition World Call)} {s s' : Store} {old new : BackgroundJob}

/-! ## Keys -/

theorem JobEvent.text_injective {a b : JobEvent} (h : a.text.toList = b.text.toList) :
    a = b := by
  have hsame := congrArg List.length h
  revert hsame
  cases a <;> cases b <;> decide +kernel

theorem JobEvent.colon_not_mem_text (event : JobEvent) : ':' ∉ event.text.toList := by
  cases event <;> decide +kernel

variable {n : Nat}

theorem eventKey_inj {id' : Nat} {event event' : JobEvent} {n' : Nat}
    (h : Store.eventKey id event n = Store.eventKey id' event' n') :
    id = id' ∧ event = event' ∧ n = n' := by
  have hlist : ∀ id event n, (Store.eventKey id event n).toList =
      "job:".toList ++ ((toString id).toList ++
        ':' :: (event.text.toList ++ ':' :: (toString n).toList)) := by
    intro id event n
    simp only [Store.eventKey, String.toList_append, List.append_assoc]
    rfl
  have hequal := congrArg String.toList h
  rw [hlist, hlist] at hequal
  have hcolon : ∀ n : Nat, ':' ∉ (toString n).toList := Keys.not_mem_toString (by decide)
  obtain ⟨hid, hrest⟩ := Keys.append_sep_inj (hcolon id) (hcolon id')
    (List.append_cancel_left hequal)
  obtain ⟨htext, hcnt⟩ := Keys.append_sep_inj event.colon_not_mem_text
    event'.colon_not_mem_text hrest
  exact ⟨Keys.toString_inj hid, JobEvent.text_injective htext, Keys.toString_inj hcnt⟩

/-! ## The event of a state change -/

/-- The event that announces a state; a job that returns to the queue waits for
a retry. -/
def eventFor : JobState → JobEvent
  | .queued => .retryWait
  | .running => .running
  | .succeeded => .succeeded
  | .failed => .needsAttention
  | .canceled => .canceled

/-- The event that a change of a row calls for: none as long as the state
stays the same. -/
def statusChange : Option BackgroundJob → Option BackgroundJob → Option JobEvent
  | none, some _ => some .queued
  | some old, some new => if new.state = old.state then none else some (eventFor new.state)
  | _, none => none

variable {before : Option BackgroundJob}

/-- A call emits for a row exactly the event that the change of its state calls
for. -/
theorem RowChange.event_eq {after : Option BackgroundJob} {event : Option JobEvent}
    (h : RowChange call id before after event) : event = statusChange before after := by
  cases h with
  | unchanged => cases before <;> simp [statusChange]
  | created => rfl
  | claimed _ _ hclm =>
    simp [statusChange, Jobs.claimed, (claimable_eq_true hclm).1, eventFor]
  | extended => simp [statusChange, Jobs.extended]
  | completed _ _ hholds => simp [statusChange, Jobs.completed, hholds.running, eventFor]
  | retryWait _ _ hholds => simp [statusChange, Jobs.requeued, hholds.running, eventFor]
  | retryParked _ _ hholds => simp [statusChange, Jobs.parked, hholds.running, eventFor]
  | canceled _ _ hact =>
    rcases hact with hact | hact <;>
      simp [statusChange, Jobs.canceled, hact, eventFor]
  | reclaimed _ hrecl =>
    simp [statusChange, Jobs.requeued, (reclaimable_eq_true hrecl).1, eventFor]
  | reclaimParked _ hrecl =>
    simp [statusChange, Jobs.parked, (reclaimable_eq_true hrecl).1, eventFor]

/-! ## What the outbox remembers of a row -/

/-- What must be true of a row whose history has the event at attempt `n`. -/
def Emitted (row : BackgroundJob) (event : JobEvent) (n : Nat) : Prop :=
  n ≤ row.attemptCount ∧
  match event with
  | .queued => True
  | .running => True
  | .retryWait => n = row.attemptCount → row.state ≠ .running
  | .needsAttention => row.state = .failed
  | .succeeded => row.state = .succeeded
  | .canceled => row.state = .canceled

/-- Leaving an attempt, or the queue for good, keeps the history of the row
true; the event that announces the new state is new. -/
theorem emitted_leave (hact : old.state = .queued ∨ old.state = .running)
    (hcnt : new.attemptCount = old.attemptCount) (hleft : new.state ≠ .running)
    (hback : new.state = .queued → old.state = .running) :
    (∀ event n, Emitted old event n → Emitted new event n) ∧
      Emitted new (eventFor new.state) new.attemptCount ∧
      ¬Emitted old (eventFor new.state) new.attemptCount := by
  refine ⟨?_, ?_, ?_⟩
  · rintro event n ⟨hle, hst⟩
    refine ⟨hcnt ▸ hle, ?_⟩
    cases event with
    | queued => trivial
    | running => trivial
    | retryWait => exact fun _ => hleft
    | needsAttention | succeeded | canceled =>
      rcases hact with hact | hact <;>
        rw [hact] at hst <;>
        cases hst
  · refine ⟨le_refl _, ?_⟩
    cases hst : new.state with
    | running => exact absurd hst hleft
    | queued => exact fun _ => nofun
    | succeeded | failed | canceled => rfl
  · rintro ⟨-, hhistory⟩
    cases hst : new.state with
    | running => exact hleft hst
    | queued =>
      rw [hst] at hhistory
      exact hhistory hcnt (hback hst)
    | succeeded | failed | canceled =>
      rw [hst] at hhistory
      rcases hact with hact | hact <;>
        rw [eventFor, hact] at hhistory <;>
        cases hhistory

/-- A change keeps the history of the row true, adds its own event to it, and
that event is new. -/
theorem RowChange.emitted {event : Option JobEvent}
    (h : RowChange call id (some old) (some new) event) :
    (∀ event n, Emitted old event n → Emitted new event n) ∧
      ∀ event' ∈ event, Emitted new event' new.attemptCount ∧
        ¬Emitted old event' new.attemptCount := by
  have hleave : (old.state = .queued ∨ old.state = .running) →
      new.attemptCount = old.attemptCount → new.state ≠ .running →
      (new.state = .queued → old.state = .running) →
      event = some (eventFor new.state) →
      (∀ event n, Emitted old event n → Emitted new event n) ∧
        ∀ event' ∈ event, Emitted new event' new.attemptCount ∧
          ¬Emitted old event' new.attemptCount := by
    intro hact hcnt hleft hback hev
    obtain ⟨hkept, hadded⟩ := emitted_leave hact hcnt hleft hback
    refine ⟨hkept, ?_⟩
    intro event' hmem
    rw [hev] at hmem
    obtain rfl := Option.some.inj hmem
    exact hadded
  cases h with
  | unchanged => exact ⟨fun _ _ h => h, by simp⟩
  | extended => exact ⟨fun _ _ h => h, by simp⟩
  | claimed _ _ hclm =>
    have hqueued := (claimable_eq_true hclm).1
    constructor
    · rintro event n ⟨hle, hst⟩
      refine ⟨Nat.le_succ_of_le hle, ?_⟩
      cases event with
      | queued => trivial
      | running => trivial
      | retryWait =>
        intro heq
        have hlt : n < old.attemptCount + 1 := Nat.lt_succ_of_le hle
        exact absurd heq (Nat.ne_of_lt hlt)
      | needsAttention | succeeded | canceled =>
        rw [hqueued] at hst
        cases hst
    · rintro event' ⟨⟩
      refine ⟨⟨le_refl _, trivial⟩, ?_⟩
      rintro ⟨hle, -⟩
      exact absurd hle (Nat.not_succ_le_self _)
  | completed _ _ hholds =>
    exact hleave (Or.inr hholds.running) rfl nofun nofun rfl
  | retryWait _ _ hholds =>
    exact hleave (Or.inr hholds.running) rfl nofun (fun _ => hholds.running) rfl
  | retryParked _ _ hholds =>
    exact hleave (Or.inr hholds.running) rfl nofun nofun rfl
  | canceled _ _ hact => exact hleave hact rfl nofun nofun rfl
  | reclaimed _ hrecl =>
    have hrun := (reclaimable_eq_true hrecl).1
    exact hleave (Or.inr hrun) rfl nofun (fun _ => hrun) rfl
  | reclaimParked _ hrecl =>
    exact hleave (Or.inr (reclaimable_eq_true hrecl).1) rfl nofun nofun rfl

theorem RowChange.emitted_new {event : JobEvent}
    (h : RowChange call id before (some new) (some event)) :
    Emitted new event new.attemptCount := by
  cases before with
  | none =>
    cases h
    exact ⟨le_refl _, trivial⟩
  | some old => exact (h.emitted.2 event rfl).1

theorem RowChange.not_emitted {event : JobEvent}
    (h : RowChange call id before (some new) (some event)) :
    ∀ old ∈ before, ¬Emitted old event new.attemptCount := by
  rintro old ⟨⟩
  exact (h.emitted.2 event rfl).2

/-! ## The outbox invariant -/

/-- Every event belongs to a row whose history has it, and keys are distinct. -/
structure OutboxInv (s : Store) : Prop where
  emitted : ∀ e ∈ s.outbox, ∃ row event n, s.job? e.aggregateId = some row ∧
    e.idempotencyKey = Store.eventKey e.aggregateId event n ∧ Emitted row event n
  nodup : (s.outbox.map OutboxEvent.idempotencyKey).Nodup

theorem OutboxInv.fresh {event : JobEvent} (hinv : OutboxInv s)
    (hnew : ∀ row ∈ s.job? id, ¬Emitted row event n) :
    ∀ e ∈ s.outbox, e.idempotencyKey ≠ Store.eventKey id event n := by
  intro e he heq
  obtain ⟨row, event', n', hrow, hkey, hemitted⟩ := hinv.emitted e he
  obtain ⟨hid, rfl, rfl⟩ := eventKey_inj (hkey.symm.trans heq)
  rw [hid] at hrow
  exact hnew row hrow hemitted

theorem OutboxInv.fresh_row {event : JobEvent} (hinv : OutboxInv s) (hold : s.job? id = some old)
    (hnew : ¬Emitted old event n) :
    ∀ e ∈ s.outbox, e.idempotencyKey ≠ Store.eventKey id event n := by
  refine hinv.fresh ?_
  intro row hrow
  rw [hold] at hrow
  cases hrow
  exact hnew

theorem mem_eventRows {emitted : List (BackgroundJob × JobEvent)} {e : OutboxEvent}
    (h : e ∈ eventRows now n emitted) :
    ∃ k job event, (job, event) ∈ emitted ∧ e = Store.eventRow k job event now := by
  induction emitted generalizing n with
  | nil => simp [eventRows] at h
  | cons first rest ih =>
    obtain ⟨job, event⟩ := first
    rcases List.mem_cons.mp h with rfl | hrest
    · exact ⟨n, job, event, by simp, rfl⟩
    · obtain ⟨k, job', event', hmem, heq⟩ := ih hrest
      exact ⟨k, job', event', by simp [hmem], heq⟩

theorem keys_eventRows (emitted : List (BackgroundJob × JobEvent)) (n : Nat) :
    (eventRows now n emitted).map OutboxEvent.idempotencyKey =
      emitted.map fun e => Store.eventKey e.1.id e.2 e.1.attemptCount := by
  induction emitted generalizing n with
  | nil => rfl
  | cons first rest ih =>
    simp only [eventRows, List.map_cons, ih]
    rfl

namespace Effect

variable {emitted : List (BackgroundJob × JobEvent)}

/-- An emitted event belongs to the row that the call left, and the call made
the change that it announces. -/
theorem emitted_row (h : Effect s call s' emitted) {e : BackgroundJob × JobEvent}
    (he : e ∈ emitted) :
    s'.job? e.1.id = some e.1 ∧
      RowChange call e.1.id (s.job? e.1.id) (some e.1) (some e.2) := by
  obtain ⟨event, hchg, hfilt⟩ := h.rows e.1.id
  have hmem : e ∈ emitted.filter fun other => other.1.id = e.1.id := by
    simp [he]
  rw [hfilt] at hmem
  cases ha : s'.job? e.1.id with
  | none =>
    rw [ha] at hmem
    simp [emittedFor] at hmem
  | some row =>
    cases event with
    | none => simp at hmem
    | some event =>
      rw [ha] at hmem hchg
      obtain rfl := List.mem_singleton.mp hmem
      exact ⟨rfl, hchg⟩

theorem emitted_nodup (h : Effect s call s' emitted) : (emitted.map fun e => e.1.id).Nodup := by
  rw [List.nodup_iff_count_le_one]
  intro id
  obtain ⟨event, -, hfilt⟩ := h.rows id
  have hlen : (emitted.filter fun e => e.1.id = id).length ≤ 1 := by
    rw [hfilt]
    cases s'.job? id <;> cases event <;> simp [emittedFor]
  rw [List.count_eq_countP, List.countP_map, List.countP_eq_length_filter]
  exact hlen

end Effect

theorem Step.outboxInv (h : Step w call w') (hqueue : QueueInv w) (hinv : OutboxInv w.store) :
    OutboxInv w'.store := by
  obtain ⟨emitted, heff⟩ := step_effect hqueue.keyed h
  refine ⟨?_, ?_⟩
  · intro e he
    rw [heff.outbox, List.mem_append] at he
    rcases he with he | he
    · obtain ⟨row, event, n, hrow, hkey, hhistory⟩ := hinv.emitted e he
      obtain ⟨event', hchg, -⟩ := heff.rows e.aggregateId
      rw [hrow] at hchg
      obtain ⟨new, hnew⟩ := hchg.exists_after
      rw [hnew] at hchg
      exact ⟨new, event, n, hnew, hkey, hchg.emitted.1 event n hhistory⟩
    · obtain ⟨k, job, event, hmem, rfl⟩ := mem_eventRows he
      obtain ⟨hrow, hchg⟩ := heff.emitted_row hmem
      exact ⟨job, event, job.attemptCount, hrow, rfl, hchg.emitted_new⟩
  · rw [heff.outbox, List.map_append, keys_eventRows, List.nodup_append]
    refine ⟨hinv.nodup, ?_, ?_⟩
    · -- two events of one call belong to different rows
      have hids := heff.emitted_nodup
      have hnd := List.Nodup.of_map _ hids
      rw [List.nodup_map_iff_inj_on hnd] at hids ⊢
      intro a ha b hb heq
      exact hids a ha b hb (eventKey_inj heq).1
    · intro key hold other ho heq
      obtain ⟨e, he, rfl⟩ := List.mem_map.mp hold
      obtain ⟨⟨job, event⟩, hmem, rfl⟩ := List.mem_map.mp ho
      obtain ⟨-, hchg⟩ := heff.emitted_row hmem
      exact hinv.fresh hchg.not_emitted e he heq

theorem QueueRun.outboxInv (hrun : QueueRun owners start trace w) : OutboxInv w.store := by
  have key : QueueInv w ∧ OutboxInv w.store := by
    refine hrun.state_invariant (I := fun w => QueueInv w ∧ OutboxInv w.store)
      ⟨queueInv_empty owners start, by simp [Store.empty], by simp [Store.empty]⟩ ?_
    rintro s call t ⟨hqueue, hinv⟩ h
    exact ⟨h.queueInv hqueue, h.outboxInv hqueue hinv⟩
  exact key.2

/-! ## One event per state change -/

def announcement (e : OutboxEvent) : Nat × String × String × Instant :=
  (e.ownerId, e.eventType, e.idempotencyKey, e.occurredAt)

/-- What the transition must announce about the job: the event of its state
change, if its state changed. -/
def announced (id : Nat) (e : Transition World Call) : Option (Nat × String × String × Instant) :=
  match e.after.store.job? id with
  | none => none
  | some row => (statusChange (e.before.store.job? id) (some row)).map fun event =>
    (row.ownerId, event.text, Store.eventKey id event row.attemptCount, e.label.now)

theorem filter_eventRows (emitted : List (BackgroundJob × JobEvent)) (n id : Nat) :
    ((eventRows now n emitted).filter fun e => e.aggregateId = id).map announcement =
      (emitted.filter fun e => e.1.id = id).map fun e =>
        (e.1.ownerId, e.2.text, Store.eventKey e.1.id e.2 e.1.attemptCount, now) := by
  induction emitted generalizing n with
  | nil => rfl
  | cons first rest ih =>
    obtain ⟨job, event⟩ := first
    have hrest := ih (n + 1)
    by_cases hid : job.id = id
    · simp only [eventRows, Store.eventRow, List.filter_cons, hid, decide_true, if_true,
        List.map_cons] at hrest ⊢
      rw [hrest]
      rfl
    · simp only [eventRows, Store.eventRow, List.filter_cons, hid, decide_false,
        Bool.false_eq_true, if_false] at hrest ⊢
      exact hrest

theorem Step.announced (h : Step w call w') (hqueue : QueueInv w) (id : Nat) :
    (w'.store.outbox.filter fun e => e.aggregateId = id).map announcement =
      (w.store.outbox.filter fun e => e.aggregateId = id).map announcement ++
        (announced id ⟨w, call, w'⟩).toList := by
  obtain ⟨emitted, heff⟩ := step_effect hqueue.keyed h
  obtain ⟨event, hchg, hfilt⟩ := heff.rows id
  rw [heff.outbox, List.filter_append, List.map_append, filter_eventRows, hfilt]
  congr 1
  have hev := hchg.event_eq
  unfold Jobs.announced
  cases ha : w'.store.job? id with
  | none => simp [emittedFor]
  | some row =>
    rw [ha] at hev
    dsimp only
    rw [← hev]
    have hid : row.id = id := id_of_job? ha
    cases event with
    | none => rfl
    | some event => simp [emittedFor, hid]

theorem QueueRun.announced (hrun : QueueRun owners start trace w) (id : Nat) :
    (w.store.outbox.filter fun e => e.aggregateId = id).map announcement =
      trace.filterMap (announced id) := by
  have key : QueueInv w ∧
      (w.store.outbox.filter fun e => e.aggregateId = id).map announcement =
        trace.filterMap (Jobs.announced id) := by
    refine hrun.invariant (I := fun trace w => QueueInv w ∧
      (w.store.outbox.filter fun e => e.aggregateId = id).map announcement =
        trace.filterMap (Jobs.announced id)) ⟨queueInv_empty owners start, rfl⟩ ?_
    rintro trace s call t ⟨hinv, hsame⟩ h
    refine ⟨h.queueInv hinv, ?_⟩
    rw [h.announced hinv id, hsame, List.filterMap_append]
    cases hannounced : Jobs.announced id ⟨s, call, t⟩ <;> simp [hannounced]
  exact key.2

/-! ## No insert is refused -/

def NoViolation {α : Type} (x : Except JobError α) : Prop :=
  ∀ constraint, x ≠ .error (.uniqueViolation constraint)

theorem NoViolation.ok {α : Type} (value : α) : NoViolation (.ok value) := by
  intro constraint h
  cases h

theorem NoViolation.bind {α β : Type} {x : Except JobError α} {f : α → Except JobError β}
    (hx : NoViolation x) (hf : ∀ value, x = .ok value → NoViolation (f value)) :
    NoViolation (x >>= f) := by
  intro constraint h
  rcases bind_error_iff.mp h with h | ⟨value, hval, h⟩
  · exact hx constraint h
  · exact hf value hval constraint h

theorem noViolation_runningJob (s : Store) (now : Instant) (id : Nat) (workerId : String) :
    NoViolation (runningJob s now id workerId) := by
  intro constraint h
  unfold runningJob at h
  split at h
  · cases h
  · split_ifs at h <;> cases h

theorem noViolation_addSeconds (now : Instant) (n : Nat) : NoViolation (addSeconds now n) := by
  intro constraint h
  unfold addSeconds at h
  split_ifs at h
  cases h

theorem noViolation_reload (s : Store) (id : Nat) : NoViolation (s.reload id) := by
  intro constraint h
  unfold Store.reload at h
  split at h <;> cases h

theorem noViolation_retryDisposition (attemptCount maxAttempts : Nat)
    (category : ErrorCategory) :
    NoViolation (retryDisposition attemptCount maxAttempts category) := by
  intro constraint h
  unfold retryDisposition at h
  split_ifs at h
  cases h

theorem noViolation_statusEvent {job : BackgroundJob} {event : JobEvent}
    (hnew : ∀ e ∈ s.outbox,
      e.idempotencyKey ≠ Store.eventKey job.id event job.attemptCount) :
    NoViolation (s.statusEvent job event now) := by
  refine NoViolation.bind ?_ fun _ _ => NoViolation.ok _
  intro constraint h
  have hmem := raiseFirst_error h
  simp only [List.mem_cons, List.not_mem_nil, or_false, Prod.mk.injEq, reduceCtorEq, and_false,
    false_or] at hmem
  obtain ⟨e, he, hsame⟩ := List.any_eq_true.mp hmem.1.symm
  simp only [Bool.and_eq_true, beq_iff_eq] at hsame
  exact hnew e he hsame.2

theorem noViolation_rewrite {α : Type} {vals : BackgroundJob → BackgroundJob}
    {event : JobEvent} {next : BackgroundJob → Store → Except JobError α}
    (hold : s.job? old.id = some old)
    (hident : ∀ row, identity (vals row) = identity row)
    (hnew : ∀ e ∈ s.outbox,
      e.idempotencyKey ≠ Store.eventKey old.id event (vals old).attemptCount)
    (hnext : ∀ current after, NoViolation (next current after)) :
    NoViolation (do
      let current ← (s.updateJob old.id vals).reload old.id
      let after ← (s.updateJob old.id vals).statusEvent current event now
      next current after) := by
  refine NoViolation.bind (noViolation_reload _ _) ?_
  intro current hcur
  rw [reload_updateJob hident hold] at hcur
  obtain rfl := Except.ok.inj hcur
  refine NoViolation.bind (noViolation_statusEvent ?_) fun after _ => hnext _ after
  rw [id_of_identity hident]
  exact hnew

theorem not_emitted_end {event : JobEvent} (hact : old.state = .queued ∨ old.state = .running)
    (hend : event ∈ [JobEvent.needsAttention, .succeeded, .canceled]) : ¬Emitted old event n := by
  rintro ⟨-, hst⟩
  simp only [List.mem_cons, List.not_mem_nil, or_false] at hend
  rcases hend with rfl | rfl | rfl <;> rcases hact with hact | hact <;>
    rw [hact] at hst <;> cases hst

theorem noViolation_complete (hinv : OutboxInv s) (now : Instant) (id : Nat)
    (cmd : CompleteJobCommand) : NoViolation (complete s now id cmd) := by
  refine NoViolation.bind (noViolation_runningJob _ _ _ _) ?_
  intro job hrun
  obtain ⟨hjob, expiry, hholds⟩ := runningJob_ok hrun
  obtain rfl := id_of_job? hjob
  exact noViolation_rewrite hjob (fun _ => rfl) (hinv.fresh_row hjob
    (not_emitted_end (Or.inr hholds.running) (by decide))) fun _ _ => NoViolation.ok _

theorem noViolation_heartbeat (s : Store) (now : Instant) (id : Nat)
    (cmd : HeartbeatJobCommand) : NoViolation (heartbeat s now id cmd) := by
  refine NoViolation.bind (noViolation_runningJob _ _ _ _) fun job _ => ?_
  refine NoViolation.bind (noViolation_addSeconds _ _) fun expiresAt _ => ?_
  exact NoViolation.bind (noViolation_reload _ _) fun current _ => NoViolation.ok _

theorem not_emitted_requeued {availableAt : Instant} {category : ErrorCategory}
    {details : ErrorDetails} (hrun : old.state = .running) :
    ¬Emitted old .retryWait (requeued now availableAt category details old).attemptCount :=
  fun h => h.2 rfl hrun

theorem noViolation_retry (hinv : OutboxInv s) (now : Instant) (id : Nat)
    (cmd : RetryJobCommand) : NoViolation (retry s now id cmd) := by
  refine NoViolation.bind (noViolation_runningJob _ _ _ _) ?_
  intro job hrun
  obtain ⟨hjob, expiry, hholds⟩ := runningJob_ok hrun
  obtain rfl := id_of_job? hjob
  refine NoViolation.bind (noViolation_retryDisposition _ _ _) ?_
  intro disposition _
  cases disposition with
  | retryWait =>
    refine NoViolation.bind (noViolation_addSeconds _ _) fun availableAt _ => ?_
    exact noViolation_rewrite hjob (fun _ => rfl) (hinv.fresh_row hjob
      (not_emitted_requeued hholds.running)) fun _ _ => NoViolation.ok _
  | needsAttention =>
    exact noViolation_rewrite hjob (fun _ => rfl) (hinv.fresh_row hjob
      (not_emitted_end (Or.inr hholds.running) (by decide))) fun _ _ => NoViolation.ok _

theorem noViolation_cancel (hinv : OutboxInv s) (now : Instant) (ownerId id : Nat) :
    NoViolation (cancel s now ownerId id) := by
  unfold cancel
  split
  · nofun
  · rename_i job hfilt
    obtain ⟨hjob, -⟩ := Option.filter_eq_some_iff.mp hfilt
    obtain rfl := id_of_job? hjob
    have hwrite : (job.state = .queued ∨ job.state = .running) → NoViolation (do
        let current ← (s.updateJob job.id (canceled now)).reload job.id
        let after ← (s.updateJob job.id (canceled now)).statusEvent current .canceled now
        return (response current, after)) := by
      intro hact
      exact noViolation_rewrite hjob (fun _ => rfl) (hinv.fresh_row hjob
        (not_emitted_end hact (by decide))) fun _ _ => NoViolation.ok _
    split
    · exact NoViolation.ok _
    · nofun
    · nofun
    · exact hwrite (Or.inl ‹_›)
    · exact hwrite (Or.inr ‹_›)

theorem noViolation_claim (hkey : s.Keyed) (hinv : OutboxInv s) (now : Instant)
    (cmd : ClaimJobCommand) (locked : List Nat) :
    NoViolation (claim s now cmd locked) := by
  simp only [claim]
  split
  · exact NoViolation.ok _
  · rename_i job hhead
    obtain ⟨hmem, -⟩ := mem_of_claimable_head hhead
    refine NoViolation.bind (noViolation_addSeconds _ _) fun expiresAt _ => ?_
    have hjob := hkey.job?_of_mem hmem
    have hnew : ¬Emitted job .running (claimed now cmd.workerId expiresAt job).attemptCount :=
      fun h => absurd h.1 (Nat.not_succ_le_self _)
    exact noViolation_rewrite hjob (fun _ => rfl) (hinv.fresh_row hjob hnew)
      fun _ _ => NoViolation.ok _

theorem noViolation_enqueue (hkeyed : s.Keyed) (hinv : OutboxInv s) (now : Instant)
    (ownerId : Nat) (cmd : EnqueueJobCommand) (key : String) :
    NoViolation (enqueue s now ownerId cmd key) := by
  simp only [enqueue]
  split
  · exact fun _ h => by cases h
  · split
    · split
      · exact NoViolation.ok _
      · exact fun _ h => by cases h
    · rename_i hkey
      have hins : NoViolation (s.insertJob (newJob s.nextJobId ownerId cmd key now)) := by
        refine NoViolation.bind ?_ fun _ _ => NoViolation.bind ?_ fun _ _ =>
          NoViolation.bind ?_ fun _ _ => NoViolation.ok _
        · intro constraint h
          simpa using raiseFirst_error h
        · intro constraint h
          cases hval : validateBackgroundJob (newJob s.nextJobId ownerId cmd key now) <;>
            simp [hval, Except.mapError] at h
        · intro constraint h
          have hmem := raiseFirst_error h
          simp [newJob, hkey] at hmem
      refine NoViolation.bind hins ?_
      intro inserted hok
      obtain ⟨rfl, -, -, -⟩ := insertJob_ok hok
      refine NoViolation.bind (noViolation_statusEvent ?_) fun _ _ => NoViolation.ok _
      refine hinv.fresh ?_
      intro row hrow
      have hlt := hkeyed.fresh row (Table.mem_of_lookup hrow)
      have hid : row.id = s.nextJobId := id_of_job? hrow
      exact absurd hlt (by rw [hid]; exact lt_irrefl _)

/-- The loop of `reclaim_expired`: the rows of a batch are distinct, so an event
of the batch never takes the key of another. -/
theorem noViolation_reclaim (batch : List BackgroundJob) (s : Store) (res : ReclaimResult)
    (hnd : (batch.map BackgroundJob.id).Nodup)
    (hcur : ∀ job ∈ batch, s.job? job.id = some job)
    (hnew : ∀ job ∈ batch, ∀ e ∈ s.outbox, e.idempotencyKey ≠
      Store.eventKey job.id (reclaimWrite now job).event job.attemptCount) :
    NoViolation (batch.foldlM (reclaimJob now) (res, s)) := by
  induction batch generalizing s res with
  | nil => exact NoViolation.ok _
  | cons first rest ih =>
    rw [List.map_cons, List.nodup_cons] at hnd
    rw [List.foldlM_cons]
    refine NoViolation.bind ?_ ?_
    · have hjob := hcur first (by simp)
      have hkey := hnew first (by simp)
      unfold reclaimWrite at hkey
      simp only [reclaimJob]
      split_ifs at hkey ⊢
      · exact noViolation_rewrite hjob (fun _ => rfl) hkey fun _ _ => NoViolation.ok _
      · exact noViolation_rewrite hjob (fun _ => rfl) hkey fun _ _ => NoViolation.ok _
    · rintro ⟨progress, after⟩ hok
      obtain rfl := reclaimJob_ok (hcur first (by simp)) hok
      have hapart : ∀ job ∈ rest, job.id ≠ first.id := by
        intro job hjob heq
        exact hnd.1 (heq ▸ List.mem_map_of_mem hjob)
      refine ih _ progress hnd.2 ?_ ?_
      · intro job hjob
        rw [job?_rewrite_ne now reclaimWrite_identity
          (by rw [reclaimWrite_job]; exact hapart job hjob)]
        exact hcur job (by simp [hjob])
      · intro job hjob e he
        simp only [Store.rewrite, Store.emit, Store.updateJob, List.mem_append,
          List.mem_singleton] at he
        rcases he with he | rfl
        · exact hnew job (by simp [hjob]) e he
        · intro heq
          have hid := (eventKey_inj heq).1
          rw [id_of_identity reclaimWrite_identity, reclaimWrite_job] at hid
          exact hapart job hjob hid.symm

theorem noViolation_reclaimExpired (hkey : s.Keyed) (hinv : OutboxInv s) (now : Instant)
    (limit : Nat) (locked : List Nat) : NoViolation (reclaimExpired s now limit locked) := by
  refine noViolation_reclaim _ s _ (nodup_reclaimBatch hkey now limit locked)
    (fun job hjob => hkey.job?_of_mem (mem_reclaimBatch hjob).1) ?_
  intro job hjob
  obtain ⟨hmem, hrecl⟩ := mem_reclaimBatch hjob
  have hrun := (reclaimable_eq_true hrecl).1
  refine hinv.fresh_row (hkey.job?_of_mem hmem) ?_
  unfold reclaimWrite
  split_ifs
  · exact fun h => h.2 rfl hrun
  · exact not_emitted_end (Or.inr hrun) (by simp)

theorem transact_noViolation {α : Type} {returned : α → Outcome}
    {x : Except JobError (α × Store)} {constraint : String}
    (hret : ∀ value, returned value ≠ .raised (.uniqueViolation constraint))
    (hx : NoViolation x) :
    (transact s returned x).1 ≠ .raised (.uniqueViolation constraint) := by
  cases x with
  | ok pair => exact hret pair.1
  | error error =>
    intro h
    obtain rfl := Outcome.raised.inj h
    exact hx constraint rfl

theorem exec_noViolation (hqueue : QueueInv w) (hinv : OutboxInv w.store) (now : Instant)
    (cmd : Command) (constraint : String) :
    (exec w.store now cmd).1 ≠ .raised (.uniqueViolation constraint) := by
  cases cmd with
  | enqueue ownerId cmd key =>
    rw [exec]
    exact transact_noViolation (fun _ => nofun)
      (noViolation_enqueue hqueue.keyed hinv now ownerId cmd key)
  | claim cmd locked =>
    rw [exec]
    exact transact_noViolation (fun _ => nofun)
      (noViolation_claim hqueue.keyed hinv now cmd locked)
  | heartbeat jobId cmd =>
    rw [exec]
    exact transact_noViolation (fun _ => nofun)
      (noViolation_heartbeat w.store now jobId cmd)
  | complete jobId cmd =>
    rw [exec]
    exact transact_noViolation (fun _ => nofun) (noViolation_complete hinv now jobId cmd)
  | retry jobId cmd =>
    rw [exec]
    exact transact_noViolation (fun _ => nofun) (noViolation_retry hinv now jobId cmd)
  | cancel ownerId jobId =>
    rw [exec]
    exact transact_noViolation (fun _ => nofun) (noViolation_cancel hinv now ownerId jobId)
  | reclaimExpired limit locked =>
    rw [exec]
    exact transact_noViolation (fun _ => nofun)
      (noViolation_reclaimExpired hqueue.keyed hinv now limit locked)

/-- The outbox of every run: for each job it holds, in order, one event per
change of the job's state and nothing else; all keys are distinct; and no
command, in any state the run reaches, is rolled back by a unique constraint. -/
theorem outbox_exact (hrun : QueueRun owners start trace w) :
    (∀ id, (w.store.outbox.filter fun e => e.aggregateId = id).map announcement =
      trace.filterMap (announced id)) ∧
    (w.store.outbox.map OutboxEvent.idempotencyKey).Nodup ∧
    ∀ now command constraint,
      (exec w.store now command).1 ≠ .raised (.uniqueViolation constraint) :=
  ⟨hrun.announced, hrun.outboxInv.nodup, exec_noViolation hrun.queueInv hrun.outboxInv⟩

/-- Two attempts of one job announce five changes under five keys. -/
theorem outbox_of_retried_job :
    let run := sampleRun [(0, .enqueue 1 sampleEnqueue "review-7"), (5, .claim sampleClaim []),
      (9, .retry 1 sampleRetry), (6000009, .claim sampleClaim []),
      (6000010, .heartbeat 1 sampleHeartbeat), (6000011, .complete 1 sampleComplete)]
    run.2.store.outbox.map OutboxEvent.idempotencyKey =
        ["job:1:background_job.queued:0", "job:1:background_job.running:1",
          "job:1:background_job.retry_wait:1", "job:1:background_job.running:2",
          "job:1:background_job.succeeded:2"] ∧
      (run.2.store.outbox.filter fun e => e.aggregateId = 1).map announcement =
        run.1.filterMap (announced 1) := by
  intro run
  have hrun : QueueRun [1] 0 run.1 run.2 := queueRun_sampleRun _ (by decide +kernel)
  refine ⟨?_, (outbox_exact hrun).1 1⟩
  decide +kernel

end TamForge.Jobs
