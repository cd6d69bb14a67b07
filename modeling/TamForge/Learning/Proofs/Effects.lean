import TamForge.Learning.Commands

/-!
# What a command can do

Every invariant of the activity tables is a statement about the same few
effects: a command opens a timer, counts on one, ends one, or leaves them alone.
The inversion of `run` below says so once, with the guards that were passed; the
invariants are derived from it and never unfold a handler.
-/

namespace TamForge.Learning.ActivityService

open Models ProofSupport

/-- The tables that couple activities with their timers and attempts. -/
structure Core where
  days : Serial StudyDayRow
  activities : Serial ActivityRow
  timers : Serial ActivityTimerSession
  attempts : Serial AttemptRow

def Db.core (db : Db) : Core :=
  ⟨db.days, db.activities, db.timers, db.attempts⟩

/-! ## Loading and flushing -/

structure Loaded (db : Db) (ownerId : Nat) (row : LockedActivity) : Prop where
  activity_mem : row.activity ∈ db.activities.rows
  activity_owner : row.activity.ownerId = ownerId
  day_mem : row.day ∈ db.days.rows
  day_owner : row.day.ownerId = ownerId
  day_id : row.day.id = row.activity.studyDayId

variable {env : Env} {db after : Db} {ownerId activityId : Nat} {row : LockedActivity}

theorem loaded_of_load (h : db.load ownerId activityId = .ok row) :
    Loaded db ownerId row ∧ row.activity.id = activityId := by
  unfold Db.load at h
  split at h
  · cases h
  · rename_i found hf
    cases h
    simp only [Db.load?, Option.bind_eq_bind, Option.bind_eq_some_iff] at hf
    obtain ⟨act, hact, day, hday, definition, -, hrow⟩ := hf
    cases hrow
    have hactKey := List.find?_some hact
    have hdayKey := List.find?_some hday
    simp only [decide_eq_true_eq] at hactKey hdayKey
    refine ⟨?_, hactKey.2⟩
    constructor
    · exact List.mem_of_find?_eq_some hact
    · exact hactKey.1
    · exact List.mem_of_find?_eq_some hday
    · rw [hdayKey.1, hactKey.1]
    · exact hdayKey.2

def Db.writtenDays (db : Db) (old new : StudyDayRow) : Serial StudyDayRow :=
  if new = old then db.days else db.days.replace (fun day => day.id) new

theorem flushDay_ok {old new : StudyDayRow} (h : db.flushDay old new = .ok after) :
    after = { db with days := db.writtenDays old new } := by
  unfold Db.flushDay at h
  unfold Db.writtenDays
  split at h
  · rename_i hsame
    cases h
    rw [if_pos hsame]
  · rename_i hdiffer
    simp only [bind_ok_iff] at h
    obtain ⟨_, -, _, -, ha⟩ := h
    cases ha
    rw [if_neg hdiffer]

theorem flushActivity_ok {old new : ActivityRow} (h : db.flushActivity old new = .ok after) :
    after = { db with activities := db.activities.replace (fun act => act.id) new } := by
  simp only [Db.flushActivity, bind_ok_iff] at h
  obtain ⟨_, -, _, -, _, -, ha⟩ := h
  cases ha
  rfl

theorem flushTimer_ok {old new : ActivityTimerSession} (h : db.flushTimer old new = .ok after) :
    after = { db with timers := db.timers.replace (fun timer => timer.id) new } := by
  simp only [Db.flushTimer, bind_ok_iff] at h
  obtain ⟨_, -, _, -, ha⟩ := h
  cases ha
  rfl

/-- The row that `start` and `resume` insert. -/
def newTimer (db : Db) (ownerId activityId : Nat) (key : String) (now : Instant) :
    ActivityTimerSession :=
  { startTimer now with
    id := db.timers.next, ownerId := ownerId, activityInstanceId := activityId,
    idempotencyKey := key }

variable {now : Instant}

theorem insertTimer_ok {key : String}
    (h : db.insertTimer ownerId activityId key (startTimer now) = .ok after) :
    (∀ timer ∈ db.timers.rows, timer.activityInstanceId = activityId → timer.endedAt ≠ none) ∧
      after = { db with
        timers := (db.timers.insert fun _ => newTimer db ownerId activityId key now).2 } := by
  simp only [Db.insertTimer, bind_ok_iff] at h
  obtain ⟨_, hguards, ha⟩ := h
  cases ha
  refine ⟨?_, rfl⟩
  intro timer htmr hsame hopen
  have hgrd := raiseFirst_eq_ok.mp hguards
  simp only [List.forall_mem_cons, startTimer, Option.isNone_none, Bool.true_and,
    List.any_eq_false] at hgrd
  have hfree := hgrd.2.1 timer htmr
  simp [hsame, hopen] at hfree

/-! ## Heartbeats -/

def ActivityTimerSession.beat (timer : ActivityTimerSession) (now : Instant)
    (added sequence : Nat) : ActivityTimerSession :=
  { timer with
    lastHeartbeatAt := now, countedSeconds := timer.countedSeconds + added,
    lastClientSequence := sequence }

/-- The guards and the arithmetic of an accepted heartbeat. -/
structure Beat (db : Db) (row : LockedActivity) (now : Instant) (timer : ActivityTimerSession)
    (added sequence : Nat) (day : StudyDayRow) : Prop where
  found : db.openTimer? row.activity = some timer
  sequence_lt : timer.lastClientSequence < sequence
  forward : timer.lastHeartbeatAt ≤ now
  gap : added ≤ maxHeartbeatGapSeconds
  elapsed : seconds added ≤ now - timer.lastHeartbeatAt
  capped : added ≤ maximumMinutes row.day.dayType * 60 -
    db.daySeconds row.activity.ownerId row.day.id
  day_eq : day = { row.day with
    focusedMinutes := min (maximumMinutes row.day.dayType)
      ((db.daySeconds row.activity.ownerId row.day.id + added) / 60) }

variable {timer : ActivityTimerSession} {sequence : Nat}

theorem applyTimerHeartbeat_ok {timer' : ActivityTimerSession} {row' : LockedActivity}
    (hf : db.openTimer? row.activity = some timer)
    (h : applyTimerHeartbeat db row timer sequence now = .ok (row', timer', after)) :
    ∃ added, Beat db row now timer added sequence row'.day ∧
      row' = { row with day := row'.day } ∧ timer' = timer.beat now added sequence ∧
      after = { db with timers := db.timers.replace (fun timer => timer.id) timer' } := by
  simp only [applyTimerHeartbeat, bind_ok_iff, mapError_ok_iff] at h
  obtain ⟨decision, hdec, flushed, hflush, hres⟩ := h
  cases hres
  have hcnt := applyHeartbeat_counted hdec
  have htmr := hcnt.timer_eq
  refine ⟨decision.addedSeconds, ?_, rfl, ?_, ?_⟩
  · constructor
    · exact hf
    · exact hcnt.sequence
    · exact hcnt.forward
    · exact hcnt.gap
    · exact hcnt.elapsed
    · exact hcnt.capped
    · simp only [hcnt.day_eq, Nat.mul_div_cancel _ (by decide : 0 < 60)]
  · rw [htmr]
    rfl
  · exact flushTimer_ok hflush

theorem requireOpenTimer_ok (h : requireOpenTimer db row.activity = .ok timer) :
    db.openTimer? row.activity = some timer := by
  unfold requireOpenTimer at h
  split at h
  · cases h
  · rename_i found hf
    cases h
    exact hf

theorem openTimer_spec {act : ActivityRow} (h : db.openTimer? act = some timer) :
    timer ∈ db.timers.rows ∧ timer.ownerId = act.ownerId ∧
      timer.activityInstanceId = act.id ∧ timer.endedAt = none := by
  have hopen := List.find?_some h
  simp only [Db.isOpenFor, Bool.and_eq_true, beq_iff_eq, Option.isNone_iff_eq_none] at hopen
  exact ⟨List.mem_of_find?_eq_some h, hopen.1.1, hopen.1.2, hopen.2⟩

/-! ## Effects -/

/-- The activity moved to `target` and nothing that identifies it changed. -/
structure Moved (old new : ActivityRow) (target : ActivityState) : Prop where
  id : new.id = old.id
  ownerId : new.ownerId = old.ownerId
  studyDayId : new.studyDayId = old.studyDayId
  taskDefinitionId : new.taskDefinitionId = old.taskDefinitionId
  state : new.state = target
  sourceHidden : new.sourceHidden = old.sourceHidden
  version : new.optimisticVersion = old.optimisticVersion + 1

def Db.writtenActivities (db : Db) (activity : ActivityRow) : Serial ActivityRow :=
  db.activities.replace (fun activity => activity.id) activity

def Db.writtenTimers (db : Db) (timer : ActivityTimerSession) : Serial ActivityTimerSession :=
  db.timers.replace (fun timer => timer.id) timer

def ActivityTimerSession.stop (timer : ActivityTimerSession) (pausedAt : Option Instant)
    (now : Instant) : ActivityTimerSession :=
  { timer with pausedAt := pausedAt, endedAt := some now }

/-- The attempts after an activity moved to `target`: committing an output
saves the one attempt of the activity. -/
def SavedAttempts (db : Db) (activity : ActivityRow) (target : ActivityState)
    (attempts : Serial AttemptRow) : Prop :=
  (target ≠ .outputCommitted ∧ attempts = db.attempts) ∨
    (target = .outputCommitted ∧ ∃ attempt : AttemptRow, attempt.id = db.attempts.next ∧
      attempt.ownerId = activity.ownerId ∧ attempt.activityInstanceId = activity.id ∧
      attempts = (db.attempts.insert fun _ => attempt).2)

/-- Everything a committed command can do to the core tables. -/
inductive Effect (now : Instant) (db after : Db) : Prop
  | quiet (core : after.core = db.core)
  | shown {ownerId : Nat} {row : LockedActivity} {activity : ActivityRow} {hidden : Bool}
      (loaded : Loaded db ownerId row) (changed : row.activity.sourceHidden ≠ hidden)
      (activity_eq : activity = { row.activity with
        sourceHidden := hidden, optimisticVersion := row.activity.optimisticVersion + 1 })
      (core : after.core = { db.core with activities := db.writtenActivities activity })
  | opened {ownerId : Nat} {row : LockedActivity} {activity : ActivityRow} {day : StudyDayRow}
      (key : String) (loaded : Loaded db ownerId row)
      (from_state : row.activity.state = .ready ∨ row.activity.state = .paused)
      (open_day : row.day.status = .planned ∨ row.day.status = .inProgress)
      (moved : Moved row.activity activity .active)
      (free : ∀ timer ∈ db.timers.rows, timer.activityInstanceId = row.activity.id →
        timer.endedAt ≠ none)
      (day_eq : day = row.day ∨
        day = { row.day with status := .inProgress, startedAt := some now })
      (core : after.core = ⟨db.writtenDays row.day day, db.writtenActivities activity,
        (db.timers.insert fun _ => newTimer db ownerId row.activity.id key now).2,
        db.attempts⟩)
  | beat {ownerId : Nat} {row : LockedActivity} {day : StudyDayRow}
      {timer : ActivityTimerSession} {added sequence : Nat} (loaded : Loaded db ownerId row)
      (active : row.activity.state = .active)
      (counted : Beat db row now timer added sequence day)
      (core : after.core = { db.core with
        days := db.writtenDays row.day day,
        timers := db.writtenTimers (timer.beat now added sequence) })
  | ended {ownerId : Nat} {row : LockedActivity} {activity : ActivityRow} {day : StudyDayRow}
      {timer : ActivityTimerSession} {added sequence : Nat} {target : ActivityState}
      {attempts : Serial AttemptRow} (pausedAt : Option Instant)
      (loaded : Loaded db ownerId row)
      (allowed : (row.activity.state, target) ∈ transitions)
      (inactive : target = .paused ∨ target = .outputCommitted ∨ target = .incomplete)
      (moved : Moved row.activity activity target)
      (counted : Beat db row now timer added sequence day)
      (saved : SavedAttempts db row.activity target attempts)
      (core : after.core = ⟨db.writtenDays row.day day, db.writtenActivities activity,
        db.writtenTimers ((timer.beat now added sequence).stop pausedAt now), attempts⟩)
  | dropped {ownerId : Nat} {row : LockedActivity} {activity : ActivityRow}
      (loaded : Loaded db ownerId row)
      (allowed : (row.activity.state, ActivityState.incomplete) ∈ transitions)
      (closed : db.openTimer? row.activity = none)
      (moved : Moved row.activity activity .incomplete)
      (core : after.core = { db.core with activities := db.writtenActivities activity })
  | reviewed {ownerId : Nat} {row : LockedActivity} {activity : ActivityRow}
      (loaded : Loaded db ownerId row) (committed : row.activity.state = .outputCommitted)
      (moved : Moved row.activity activity .selfReviewComplete)
      (core : after.core = { db.core with activities := db.writtenActivities activity })

theorem Effect.of_core {other : Db} (h : Effect now db after) (hcore : other.core = after.core) :
    Effect now db other := by
  cases h with
  | quiet core => exact .quiet (hcore.trans core)
  | shown loaded changed activity_eq core =>
    exact .shown loaded changed activity_eq (hcore.trans core)
  | opened key loaded from_state open_day moved free day_eq core =>
    exact .opened key loaded from_state open_day moved free day_eq (hcore.trans core)
  | beat loaded active counted core => exact .beat loaded active counted (hcore.trans core)
  | ended pausedAt loaded allowed inactive moved counted saved core =>
    exact .ended pausedAt loaded allowed inactive moved counted saved (hcore.trans core)
  | dropped loaded allowed closed moved core =>
    exact .dropped loaded allowed closed moved (hcore.trans core)
  | reviewed loaded committed moved core =>
    exact .reviewed loaded committed moved (hcore.trans core)

variable {decision : TransitionDecision}

theorem transitionOf_active {expectedVersion : Nat}
    (h : transitionOf row .active expectedVersion = .ok decision) :
    row.day.status = .planned ∨ row.day.status = .inProgress := by
  have hday := transition_active (mapError_ok_iff.mp h)
  simp only [dayForbidsWork, Bool.or_eq_false_iff] at hday
  have hst := hday.1.2
  cases hcase : row.day.status <;> simp [hcase] at hst ⊢

theorem transitionOf_ok {tgt : ActivityState} {expectedVersion : Nat}
    (h : transitionOf row tgt expectedVersion = .ok decision) :
    (row.activity.state, tgt) ∈ transitions ∧
      decision = ⟨tgt, row.activity.optimisticVersion + 1⟩ := by
  obtain ⟨hok, hdec, -⟩ := transition_ok (mapError_ok_iff.mp h)
  exact ⟨hok, hdec⟩

theorem active_from {state : ActivityState} (h : (state, ActivityState.active) ∈ transitions) :
    state = .ready ∨ state = .paused := by
  cases state <;> simp [transitions] at h ⊢

variable {response : Response} {expectedVersion : Nat} {key : String}

theorem start_effect (hload : Loaded db ownerId row)
    (h : start env db ownerId expectedVersion key row = .ok (response, after)) :
    Effect env.now db after := by
  simp only [start, bind_ok_iff] at h
  obtain ⟨_, -, decision, hdec, db₁, hday, db₂, hact, db₃, htmr, hres⟩ := h
  cases hres
  have hopen := transitionOf_active hdec
  obtain ⟨hok, rfl⟩ := transitionOf_ok hdec
  obtain rfl := flushDay_ok hday
  obtain rfl := flushActivity_ok hact
  obtain ⟨hfree, rfl⟩ := insertTimer_ok htmr
  refine .opened key hload (active_from hok) hopen ?_ hfree ?_ rfl
  · exact ⟨rfl, rfl, rfl, rfl, rfl, rfl, rfl⟩
  · split
    · exact Or.inr rfl
    · exact Or.inl rfl

theorem heartbeat_effect (hload : Loaded db ownerId row)
    (h : heartbeat env db expectedVersion sequence row = .ok (response, after)) :
    Effect env.now db after := by
  simp only [heartbeat, bind_ok_iff] at h
  obtain ⟨_, hguards, timer, htmr, ⟨counted, timer', db₁⟩, hbeat, db₂, hday, hres⟩ := h
  cases hres
  have hgrd := raiseFirst_eq_ok.mp hguards
  simp only [List.forall_mem_cons, bne_eq_false_iff_eq] at hgrd
  obtain ⟨added, hcnt, -, rfl, rfl⟩ :=
    applyTimerHeartbeat_ok (requireOpenTimer_ok htmr) hbeat
  obtain rfl := flushDay_ok hday
  exact .beat hload hgrd.2.1 hcnt rfl

theorem writtenTimers_stop {added : Nat} {pausedAt : Option Instant} :
    (db.timers.replace (fun timer => timer.id) (timer.beat now added sequence)).replace
        (fun timer => timer.id) ((timer.beat now added sequence).stop pausedAt now) =
      db.writtenTimers ((timer.beat now added sequence).stop pausedAt now) :=
  Serial.replace_replace _ rfl

theorem pause_effect (hload : Loaded db ownerId row)
    (h : pause env db expectedVersion sequence row = .ok (response, after)) :
    Effect env.now db after := by
  simp only [pause, bind_ok_iff] at h
  obtain ⟨decision, hdec, timer, htmr, ⟨counted, timer', db₁⟩, hbeat, db₂, hday, db₃,
    hact, db₄, hstop, hres⟩ := h
  cases hres
  obtain ⟨hok, rfl⟩ := transitionOf_ok hdec
  obtain ⟨added, hcnt, -, rfl, rfl⟩ :=
    applyTimerHeartbeat_ok (requireOpenTimer_ok htmr) hbeat
  obtain rfl := flushDay_ok hday
  obtain rfl := flushActivity_ok hact
  obtain rfl := flushTimer_ok hstop
  have hmov : Moved row.activity { row.activity with
      state := .paused, optimisticVersion := row.activity.optimisticVersion + 1 } .paused :=
    ⟨rfl, rfl, rfl, rfl, rfl, rfl, rfl⟩
  refine .ended (some env.now) hload hok (Or.inl rfl) hmov hcnt
    (Or.inl ⟨by decide, rfl⟩) ?_
  rw [← writtenTimers_stop]
  rfl

theorem resume_effect (hload : Loaded db ownerId row)
    (h : resume env db ownerId expectedVersion key row = .ok (response, after)) :
    Effect env.now db after := by
  simp only [resume, bind_ok_iff] at h
  obtain ⟨_, -, decision, hdec, _, -, db₁, hact, db₂, htmr, hres⟩ := h
  cases hres
  have hopen := transitionOf_active hdec
  obtain ⟨hok, rfl⟩ := transitionOf_ok hdec
  obtain rfl := flushActivity_ok hact
  obtain ⟨hfree, rfl⟩ := insertTimer_ok htmr
  have hdays : db.writtenDays row.day row.day = db.days := if_pos rfl
  have hmov : Moved row.activity { row.activity with
      state := .active, optimisticVersion := row.activity.optimisticVersion + 1 } .active :=
    ⟨rfl, rfl, rfl, rfl, rfl, rfl, rfl⟩
  refine .opened key hload (active_from hok) hopen hmov hfree
    (Or.inl rfl) ?_
  rw [hdays]
  rfl

theorem classifyIncomplete_effect {classification : Classification}
    {strongerEvidenceId : Option Nat} (hload : Loaded db ownerId row)
    (h : classifyIncomplete env db ownerId expectedVersion classification strongerEvidenceId
      row = .ok (response, after)) : Effect env.now db after := by
  simp only [classifyIncomplete, bind_ok_iff] at h
  obtain ⟨_, -, decision, hdec, ⟨counted, db₁⟩, hend, db₂, hday, db₃, hact,
    hres⟩ := h
  cases hres
  obtain ⟨hok, rfl⟩ := transitionOf_ok hdec
  obtain rfl := flushDay_ok hday
  obtain rfl := flushActivity_ok hact
  have hmov : Moved row.activity { row.activity with
      classification := classification, strongerEvidenceActivityId := strongerEvidenceId,
      completedAt := some env.now, state := .incomplete,
      optimisticVersion := row.activity.optimisticVersion + 1 } .incomplete :=
    ⟨rfl, rfl, rfl, rfl, rfl, rfl, rfl⟩
  unfold endOpenTimer at hend
  split at hend
  · rename_i hclos
    cases hend
    have hdays : db.writtenDays row.day row.day = db.days := if_pos rfl
    refine .dropped hload hok hclos hmov ?_
    simp only [Db.core, hdays]
    rfl
  · rename_i timer hf
    simp only [bind_ok_iff] at hend
    obtain ⟨⟨row', timer', db₄⟩, hbeat, db₅, hstop, hres⟩ := hend
    cases hres
    obtain ⟨added, hcnt, -, rfl, rfl⟩ := applyTimerHeartbeat_ok hf hbeat
    obtain rfl := flushTimer_ok hstop
    refine .ended timer.pausedAt hload hok (Or.inr (Or.inr rfl)) hmov hcnt
      (Or.inl ⟨by decide, rfl⟩) ?_
    rw [← writtenTimers_stop]
    rfl

theorem setSourceVisibility_effect {hidden : Bool} (hload : Loaded db ownerId row)
    (h : setSourceVisibility env db expectedVersion hidden row = .ok (response, after)) :
    Effect env.now db after := by
  simp only [setSourceVisibility, bind_ok_iff] at h
  obtain ⟨_, -, h⟩ := h
  split at h
  · rename_i hchanged
    simp only [bind_ok_iff] at h
    obtain ⟨db₁, hact, res, -, hres⟩ := h
    cases hres
    obtain rfl := flushActivity_ok hact
    exact .shown hload hchanged rfl rfl
  · simp only [bind_ok_iff] at h
    obtain ⟨res, -, hres⟩ := h
    cases hres
    exact .quiet rfl

variable {attempt : AttemptRow}

theorem insertAttempt_ok (h : db.insertAttempt attempt = .ok after) :
    after = { db with attempts := (db.attempts.insert fun _ => attempt).2 } := by
  simp only [Db.insertAttempt, bind_ok_iff] at h
  obtain ⟨_, -, _, -, ha⟩ := h
  cases ha
  rfl

variable {parent : Option Nat}

theorem newAttempt_ok {kind : AttemptKind} {validated : ValidatedOutput}
    {assistance : AssistanceMode} {commitment : CommitmentHash}
    (h : newAttempt env db ownerId activityId kind parent validated assistance commitment =
      .ok attempt)
    :
    attempt.id = db.attempts.next ∧ attempt.ownerId = ownerId ∧
      attempt.activityInstanceId = activityId := by
  unfold newAttempt at h
  split at h
  · cases h
    exact ⟨rfl, rfl, rfl⟩
  · cases h

theorem linkArtifacts_core (arts : List (ArtifactReference × Artifact)) (db : Db) :
    (linkArtifacts db attempt arts).core = db.core := by
  unfold linkArtifacts
  induction arts generalizing db with
  | nil => rfl
  | cons item rest ih =>
    rw [List.foldl_cons, ih]
    rfl

theorem commitOutput_effect {output : Json} {refs : List ArtifactReference}
    (hload : Loaded db ownerId row)
    (h : commitOutput env db ownerId expectedVersion sequence output refs parent row =
      .ok (response, after))
    : Effect env.now db after := by
  simp only [commitOutput, bind_ok_iff] at h
  obtain ⟨decision, hdec, validated, -, kind, -, ⟨commitments, artifacts⟩, -, _, -,
    commitment, -, timer, htmr, ⟨counted, timer', db₁⟩, hbeat, db₂, hday, db₃, hact,
    db₄, hstop, attempt, hatt, db₅, hins, hres⟩ := h
  cases hres
  obtain ⟨hok, rfl⟩ := transitionOf_ok hdec
  obtain ⟨added, hcnt, -, rfl, rfl⟩ :=
    applyTimerHeartbeat_ok (requireOpenTimer_ok htmr) hbeat
  obtain rfl := flushDay_ok hday
  obtain rfl := flushActivity_ok hact
  obtain rfl := flushTimer_ok hstop
  obtain rfl := insertAttempt_ok hins
  obtain ⟨hid, hown, hactId⟩ := newAttempt_ok hatt
  have hmov : Moved row.activity { row.activity with
      attemptKind := some kind, state := .outputCommitted,
      outputCommittedAt := some env.now,
      optimisticVersion := row.activity.optimisticVersion + 1 } .outputCommitted :=
    ⟨rfl, rfl, rfl, rfl, rfl, rfl, rfl⟩
  have hsaved : SavedAttempts db row.activity .outputCommitted
      (db.attempts.insert fun _ => attempt).2 :=
    Or.inr ⟨rfl, attempt, hid, hown.trans hload.activity_owner.symm, hactId, rfl⟩
  apply Effect.of_core _ (linkArtifacts_core artifacts _)
  refine .ended timer.pausedAt hload hok (Or.inr (Or.inl rfl)) hmov hcnt hsaved ?_
  rw [← writtenTimers_stop]
  rfl

theorem submitSelfReview_effect {answers : SelfReviewAnswers} {selfScore : Nat}
    (hload : Loaded db ownerId row)
    (h : submitSelfReview env db ownerId expectedVersion answers selfScore row =
      .ok (response, after)) : Effect env.now db after := by
  simp only [submitSelfReview, bind_ok_iff] at h
  obtain ⟨decision, hdec, h⟩ := h
  obtain ⟨hok, rfl⟩ := transitionOf_ok hdec
  split at h
  · split at h
    · simp only [bind_ok_iff, Db.insertSelfReview] at h
      obtain ⟨db₁, hact, db₂, ⟨_, -, hins⟩, hres⟩ := h
      cases hins
      cases hres
      obtain rfl := flushActivity_ok hact
      refine .reviewed hload ?_ ?_ rfl
      · have hfrom : ∀ state : ActivityState,
            (state, ActivityState.selfReviewComplete) ∈ transitions →
              state = .outputCommitted := by
          intro state hmem
          cases state <;> simp [transitions] at hmem ⊢
        exact hfrom _ hok
      · exact ⟨rfl, rfl, rfl, rfl, rfl, rfl, rfl⟩
    · cases h
  · cases h

/-! ## Artifacts leave the core tables alone -/

theorem ensurePendingArtifactLink_core (db : Db) (ownerId activityId artId : Nat) :
    (ensurePendingArtifactLink db ownerId activityId artId).core = db.core := by
  unfold ensurePendingArtifactLink
  split <;> rfl

variable {artifact : Artifact}

/-- An upload is confirmed by the artifact with its hash, or adds one. -/
theorem artifactOfUpload_cases {intent : ArtifactUploadIntent}
    (h : artifactOfUpload db ownerId intent = .ok (artifact, after)) :
    after = db ∨ (db.artifactByHash? ownerId intent.sha256 = none ∧
      after = { db with artifacts := (db.artifacts.insert fun id =>
        ⟨id, ownerId, intent.objectKey, intent.sha256, intent.contentType,
          intent.originalFilename, intent.byteLength, intent.artifactClass⟩).2 }) := by
  simp only [artifactOfUpload, bind_ok_iff] at h
  obtain ⟨_, -, h⟩ := h
  split at h
  · simp only [bind_ok_iff] at h
    obtain ⟨_, -, hres⟩ := h
    cases hres
    exact Or.inl rfl
  · rename_i hnone
    simp only [bind_ok_iff] at h
    obtain ⟨_, -, hres⟩ := h
    cases hres
    exact Or.inr ⟨hnone, rfl⟩

variable {store : ObjectStore} {receipt : ArtifactIntentReceipt} {objectKey : String}

theorem confirmedArtifact_cases
    (h : confirmedArtifact store db ownerId receipt objectKey = .ok (artifact, after)) :
    after = db ∨ ∃ intent, artifactOfUpload db ownerId intent = .ok (artifact, after) := by
  unfold confirmedArtifact at h
  split at h
  · split at h
    · split at h
      · simp only [bind_ok_iff] at h
        obtain ⟨_, -, hres⟩ := h
        cases hres
        exact Or.inl rfl
      · cases h
    · cases h
  · simp only [bind_ok_iff] at h
    obtain ⟨intent, -, _, -, hupload⟩ := h
    exact Or.inr ⟨intent, hupload⟩

theorem confirmedArtifact_core
    (h : confirmedArtifact store db ownerId receipt objectKey = .ok (artifact, after)) :
    after.core = db.core := by
  rcases confirmedArtifact_cases h with rfl | ⟨intent, hupload⟩
  · rfl
  · rcases artifactOfUpload_cases hupload with rfl | ⟨-, rfl⟩ <;> rfl

theorem confirmArtifact_effect {uploadKey : String}
    (h : confirmArtifact env store db ownerId expectedVersion uploadKey objectKey row =
      .ok (response, after))
    : Effect env.now db after := by
  simp only [confirmArtifact, bind_ok_iff] at h
  obtain ⟨_, -, receipt, -, _, -, ⟨artifact, db₁⟩, hart, hres⟩ := h
  cases hres
  exact .quiet ((ensurePendingArtifactLink_core _ _ _ _).trans (confirmedArtifact_core hart))

theorem refreshUpload_core (h : refreshUpload store db ownerId row receipt = .ok (response, after))
    : after.core = db.core := by
  simp only [refreshUpload, bind_ok_iff] at h
  obtain ⟨_, -, _, -, hres⟩ := h
  cases hres
  split
  · exact ensurePendingArtifactLink_core _ _ _ _
  · rfl

variable {command : Command}

theorem presignArtifact_effect {artifactClass : ArtifactClass} {sha256 : String} {byteLength : Nat}
    {contentType filename : String}
    (h : presignArtifact env store db ownerId command key expectedVersion artifactClass sha256
      byteLength contentType filename = .ok (response, after))
    : Effect env.now db after := by
  simp only [presignArtifact, bind_ok_iff] at h
  obtain ⟨row, -, duplicate?, -, h⟩ := h
  split at h
  · exact .quiet (refreshUpload_core h)
  · cases h
  · simp only [bind_ok_iff] at h
    obtain ⟨receipt, -, h⟩ := h
    have hcore := refreshUpload_core h
    exact .quiet hcore

/-! ## One call -/

theorem idempotent_effect {work : LockedActivity → Except ActivityError (Response × Db)}
    (hwork : ∀ row response after, Loaded db ownerId row → work row = .ok (response, after) →
      Effect env.now db after)
    (h : idempotent env db ownerId command key work = .ok (response, after)) :
    Effect env.now db after := by
  simp only [idempotent, bind_ok_iff] at h
  obtain ⟨row, hload, duplicate?, -, h⟩ := h
  split at h
  · split at h
    · cases h
    · cases h
      exact .quiet rfl
  · simp only [bind_ok_iff] at h
    obtain ⟨⟨res, db₁⟩, hres, ha⟩ := h
    cases ha
    exact (hwork row _ _ (loaded_of_load hload).1 hres).of_core rfl

theorem run_effect (h : run env db ownerId command key = .ok (response, after)) :
    Effect env.now db after := by
  cases command with
  | start => exact idempotent_effect (fun _ _ _ hload hwork => start_effect hload hwork) h
  | heartbeat => exact idempotent_effect (fun _ _ _ hload hwork => heartbeat_effect hload hwork) h
  | pause => exact idempotent_effect (fun _ _ _ hload hwork => pause_effect hload hwork) h
  | resume => exact idempotent_effect (fun _ _ _ hload hwork => resume_effect hload hwork) h
  | classifyIncomplete =>
    exact idempotent_effect (fun _ _ _ hload hwork => classifyIncomplete_effect hload hwork) h
  | presignArtifact =>
    simp only [run, bind_ok_iff] at h
    obtain ⟨store, -, h⟩ := h
    exact presignArtifact_effect h
  | confirmArtifact =>
    simp only [run, bind_ok_iff] at h
    obtain ⟨store, -, h⟩ := h
    exact idempotent_effect (fun _ _ _ _ hwork => confirmArtifact_effect hwork) h
  | setSourceVisibility =>
    exact idempotent_effect (fun _ _ _ hload hwork => setSourceVisibility_effect hload hwork) h
  | commitOutput =>
    exact idempotent_effect (fun _ _ _ hload hwork => commitOutput_effect hload hwork) h
  | submitSelfReview =>
    simp only [run, bind_ok_iff] at h
    obtain ⟨_, -, h⟩ := h
    exact idempotent_effect (fun _ _ _ hload hwork => submitSelfReview_effect hload hwork) h

end TamForge.Learning.ActivityService
