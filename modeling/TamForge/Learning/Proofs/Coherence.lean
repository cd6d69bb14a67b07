import TamForge.Learning.Proofs.Runs

/-!
# Activities and timers stay coherent

An activity is active exactly while one of its timers is open, and it has an
attempt exactly once its output is committed.  Both are kept by every effect of
a command, so they hold in every state that a run reaches.
-/

namespace TamForge.Learning.ActivityService

open Models ProofSupport

def Core.openCount (core : Core) (activity : ActivityRow) : Nat :=
  core.timers.rows.countP (Db.isOpenFor activity)

def Core.Attempted (core : Core) (activity : ActivityRow) : Prop :=
  ∃ attempt ∈ core.attempts.rows, attempt.ownerId = activity.ownerId ∧
    attempt.activityInstanceId = activity.id

structure Coupled (core : Core) (activity : ActivityRow) : Prop where
  timers : core.openCount activity = if activity.state = .active then 1 else 0
  attempts : core.Attempted activity ↔ activity.state.isCommitted = true

def Belongs (core : Core) (ownerId activityId : Nat) : Prop :=
  ∃ activity ∈ core.activities.rows, activity.id = activityId ∧ activity.ownerId = ownerId

structure Coherent (core : Core) : Prop where
  days : core.days.Keyed fun day => day.id
  activities : core.activities.Keyed fun activity => activity.id
  timers : core.timers.Keyed fun timer => timer.id
  timer_belongs : ∀ timer ∈ core.timers.rows,
    Belongs core timer.ownerId timer.activityInstanceId
  attempt_belongs : ∀ attempt ∈ core.attempts.rows,
    Belongs core attempt.ownerId attempt.activityInstanceId
  coupled : ∀ activity ∈ core.activities.rows, Coupled core activity

theorem coherent_of_initial {db : Db} (h : Initial db) : Coherent db.core := by
  have hnil : ∀ {α : Type}, (Serial.empty : Serial α).rows = [] := rfl
  constructor
  · rw [Db.core, h.days]
    exact Serial.keyed_empty _
  · rw [Db.core, h.activities]
    exact Serial.keyed_empty _
  · rw [Db.core, h.timers]
    exact Serial.keyed_empty _
  · simp [Db.core, h.timers, hnil]
  · simp [Db.core, h.attempts, hnil]
  · simp [Db.core, h.activities, hnil]

/-! ## Writing one activity -/

variable {attempts : Serial AttemptRow}

section Written

variable {db : Db} {old activity : ActivityRow}

theorem isOpenFor_congr (hid : activity.id = old.id) (hown : activity.ownerId = old.ownerId) :
    Db.isOpenFor activity = Db.isOpenFor old := by
  funext timer
  simp only [Db.isOpenFor, hid, hown]

variable {days : Serial StudyDayRow} {timers : Serial ActivityTimerSession}

theorem belongs_written {ownerId activityId : Nat} (hold : old ∈ db.activities.rows)
    (hid : activity.id = old.id) (hown : activity.ownerId = old.ownerId)
    (h : Belongs db.core ownerId activityId)
    (hkey : db.activities.Keyed fun activity => activity.id) :
    Belongs ⟨days, db.writtenActivities activity, timers, attempts⟩ ownerId activityId := by
  obtain ⟨found, hf, hfoundId, hfoundOwn⟩ := h
  by_cases hsame : found.id = activity.id
  · obtain rfl : found = old := hkey.eq_of_key hf hold (hsame.trans hid)
    exact ⟨activity, Serial.mem_replace_self hold hid, hid.trans hfoundId,
      hown.trans hfoundOwn⟩
  · exact ⟨found, Serial.mem_replace_of_ne hf hsame, hfoundId, hfoundOwn⟩

theorem Coherent.write (h : Coherent db.core) (hold : old ∈ db.activities.rows)
    (hid : activity.id = old.id) (hown : activity.ownerId = old.ownerId)
    (hdays : days.Keyed fun day => day.id) (htimers : timers.Keyed fun timer => timer.id)
    (htmr : ∀ timer ∈ timers.rows, Belongs db.core timer.ownerId timer.activityInstanceId)
    (hatt : ∀ att ∈ attempts.rows,
      Belongs db.core att.ownerId att.activityInstanceId)
    (hself : Coupled ⟨days, db.writtenActivities activity, timers, attempts⟩ activity)
    (ho : ∀ other ∈ db.activities.rows, other.id ≠ old.id →
      Coupled ⟨days, db.writtenActivities activity, timers, attempts⟩ other)
    : Coherent ⟨days, db.writtenActivities activity, timers, attempts⟩ := by
  constructor
  · exact hdays
  · exact h.activities.replace activity
  · exact htimers
  · intro timer hmem
    exact belongs_written hold hid hown (htmr timer hmem) h.activities
  · intro att hmem
    exact belongs_written hold hid hown (hatt att hmem) h.activities
  · intro other hmem
    rcases Serial.mem_replace hmem with rfl | ⟨hrow, hne⟩
    · exact hself
    · exact ho other hrow (hid ▸ hne)

theorem Coupled.congr {core core' : Core} {activity : ActivityRow} (h : Coupled core activity)
    (htimers : core'.timers = core.timers) (hatts : core'.attempts = core.attempts) :
    Coupled core' activity := by
  constructor
  · rw [Core.openCount, htimers]
    exact h.timers
  · rw [Core.Attempted, hatts]
    exact h.attempts

end Written

theorem keyed_writtenDays {db : Db} (h : Coherent db.core) (old new : StudyDayRow) :
    (db.writtenDays old new).Keyed fun day => day.id := by
  unfold Db.writtenDays
  split
  · exact h.days
  · exact h.days.replace new

/-! ## One effect -/

variable {target : ActivityState}

section Effects

variable {db : Db} {ownerId : Nat} {row : LockedActivity} {activity : ActivityRow}
  {timer : ActivityTimerSession} {now : Instant} {added sequence : Nat} {day : StudyDayRow}

/-- A change of the activity alone that leaves its activeness and its
commitment as they were. -/
theorem Coherent.quietly (h : Coherent db.core) (hload : Loaded db ownerId row)
    (hid : activity.id = row.activity.id) (hown : activity.ownerId = row.activity.ownerId)
    (hcnt : db.core.openCount row.activity = if activity.state = .active then 1 else 0)
    (hcom : activity.state.isCommitted = row.activity.state.isCommitted) :
    Coherent { db.core with activities := db.writtenActivities activity } := by
  apply h.write hload.activity_mem hid hown h.days h.timers h.timer_belongs h.attempt_belongs
  · have hrow := h.coupled row.activity hload.activity_mem
    constructor
    · rw [Core.openCount, isOpenFor_congr hid hown]
      exact hcnt
    · rw [Core.Attempted, hid, hown, hcom]
      exact hrow.attempts
  · intro other hmem _
    exact (h.coupled other hmem).congr rfl rfl

theorem one_le_openCount (hf : db.openTimer? row.activity = some timer) :
    1 ≤ db.core.openCount row.activity :=
  List.countP_pos_iff.mpr ⟨timer, List.mem_of_find?_eq_some hf, List.find?_some hf⟩

theorem Coherent.active_of_open (h : Coherent db.core) (hload : Loaded db ownerId row)
    (hf : db.openTimer? row.activity = some timer) : row.activity.state = .active := by
  have hcnt := (h.coupled row.activity hload.activity_mem).timers
  have hone := one_le_openCount hf
  by_contra hidle
  rw [if_neg hidle] at hcnt
  omega

theorem Coherent.opened (h : Coherent db.core) (hload : Loaded db ownerId row) (key : String)
    (hfrom : row.activity.state = .ready ∨ row.activity.state = .paused)
    (hmov : Moved row.activity activity .active) :
    Coherent ⟨db.writtenDays row.day day, db.writtenActivities activity,
      (db.timers.insert fun _ => newTimer db ownerId row.activity.id key now).2,
      db.attempts⟩ := by
  have hrow := h.coupled row.activity hload.activity_mem
  have hins : ∀ p : ActivityTimerSession → Bool,
      (db.timers.insert fun _ => newTimer db ownerId row.activity.id key now).2.rows.countP p =
        db.timers.rows.countP p +
          (if p (newTimer db ownerId row.activity.id key now) then 1 else 0) := by
    intro p
    rw [Serial.insert_rows, List.countP_append, List.countP_singleton]
    rfl
  have hkey : (db.timers.insert fun _ =>
      newTimer db ownerId row.activity.id key now).2.Keyed fun timer => timer.id :=
    h.timers.append rfl
  apply h.write hload.activity_mem hmov.id hmov.ownerId (keyed_writtenDays h _ _) hkey
  · intro other hmem
    rcases List.mem_append.mp hmem with hold | hnew
    · exact h.timer_belongs other hold
    · obtain rfl := List.mem_singleton.mp hnew
      exact ⟨row.activity, hload.activity_mem, rfl, hload.activity_owner⟩
  · exact h.attempt_belongs
  · constructor
    · rw [Core.openCount, hins, isOpenFor_congr hmov.id hmov.ownerId, hmov.state,
        if_pos rfl]
      have hnone : db.core.openCount row.activity = 0 := by
        rw [hrow.timers, if_neg]
        rcases hfrom with hst | hst <;> simp [hst]
      have hopen : Db.isOpenFor row.activity
          (newTimer db ownerId row.activity.id key now) = true := by
        simp [Db.isOpenFor, newTimer, startTimer, hload.activity_owner]
      rw [if_pos hopen]
      exact congrArg (· + 1) hnone
    · rw [Core.Attempted, hmov.id, hmov.ownerId, hmov.state]
      refine hrow.attempts.trans ?_
      rcases hfrom with hst | hst <;> simp [hst, ActivityState.isCommitted]
  · intro other hmem hne
    have hcoupled := h.coupled other hmem
    constructor
    · rw [Core.openCount, hins]
      have hclos : Db.isOpenFor other (newTimer db ownerId row.activity.id key now) = false := by
        simp [Db.isOpenFor, newTimer, hne.symm]
      rw [hclos]
      exact hcoupled.timers
    · exact hcoupled.attempts

theorem Coherent.beat (h : Coherent db.core)
    (hcnt : Beat db row now timer added sequence day) :
    Coherent { db.core with
      days := db.writtenDays row.day day,
      timers := db.writtenTimers (timer.beat now added sequence) } := by
  have hmem := (openTimer_spec hcnt.found).1
  constructor
  · exact keyed_writtenDays h _ _
  · exact h.activities
  · exact h.timers.replace _
  · intro other ho
    rcases Serial.mem_replace ho with rfl | ⟨hold, -⟩
    · exact h.timer_belongs timer hmem
    · exact h.timer_belongs other hold
  · exact h.attempt_belongs
  · intro other ho
    have hcoupled := h.coupled other ho
    constructor
    · have hcount := h.timers.countP_replace hmem
        (rfl : (timer.beat now added sequence).id = timer.id) (Db.isOpenFor other)
      have hsame : Db.isOpenFor other (timer.beat now added sequence) =
          Db.isOpenFor other timer := rfl
      rw [hsame] at hcount
      rw [← hcoupled.timers]
      exact Nat.add_right_cancel hcount
    · exact hcoupled.attempts

theorem Coherent.ended (pausedAt : Option Instant) (h : Coherent db.core)
    (hload : Loaded db ownerId row)
    (hidle : target = .paused ∨ target = .outputCommitted ∨ target = .incomplete)
    (hmov : Moved row.activity activity target)
    (hcnt : Beat db row now timer added sequence day)
    (hsaved : SavedAttempts db row.activity target attempts) :
    Coherent ⟨db.writtenDays row.day day, db.writtenActivities activity,
      db.writtenTimers ((timer.beat now added sequence).stop pausedAt now), attempts⟩ := by
  obtain ⟨hmem, hown, hact, hopen⟩ := openTimer_spec hcnt.found
  have hactive := h.active_of_open hload hcnt.found
  have hrow := h.coupled row.activity hload.activity_mem
  have hcount := h.timers.countP_replace hmem
    (rfl : ((timer.beat now added sequence).stop pausedAt now).id = timer.id)
  have hclos : ∀ other, Db.isOpenFor other
      ((timer.beat now added sequence).stop pausedAt now) = false := by
    intro other
    simp [Db.isOpenFor, ActivityTimerSession.stop]
  -- A saved attempt is the activity's own; every other attempt was there before.
  have hatts : ∀ att ∈ attempts.rows, att ∈ db.attempts.rows ∨
      (att.ownerId = row.activity.ownerId ∧ att.activityInstanceId = row.activity.id) := by
    intro att hatt
    rcases hsaved with ⟨-, rfl⟩ | ⟨-, saved, -, hsavedOwn, hsavedAct, rfl⟩
    · exact Or.inl hatt
    · rcases List.mem_append.mp hatt with hold | hnew
      · exact Or.inl hold
      · obtain rfl := List.mem_singleton.mp hnew
        exact Or.inr ⟨hsavedOwn, hsavedAct⟩
  have hkept : ∀ att ∈ db.attempts.rows, att ∈ attempts.rows := by
    intro att hatt
    rcases hsaved with ⟨-, rfl⟩ | ⟨-, saved, -, -, -, rfl⟩
    · exact hatt
    · exact List.mem_append_left _ hatt
  apply h.write hload.activity_mem hmov.id hmov.ownerId (keyed_writtenDays h _ _)
    (h.timers.replace _)
  · intro other ho
    rcases Serial.mem_replace ho with rfl | ⟨hold, -⟩
    · exact h.timer_belongs timer hmem
    · exact h.timer_belongs other hold
  · intro att hatt
    rcases hatts att hatt with hold | ⟨hattOwn, hattAct⟩
    · exact h.attempt_belongs att hold
    · rw [hattOwn, hattAct]
      exact ⟨row.activity, hload.activity_mem, rfl, rfl⟩
  · constructor
    · have hself := hcount (Db.isOpenFor row.activity)
      have hf : Db.isOpenFor row.activity timer = true := by
        simp [Db.isOpenFor, hown, hact, hopen]
      have hone : db.core.openCount row.activity = 1 := by
        rw [hrow.timers, if_pos hactive]
      rw [hclos, hf] at hself
      have hst : activity.state ≠ .active := by
        rw [hmov.state]
        rcases hidle with rfl | rfl | rfl <;> decide
      rw [Core.openCount, isOpenFor_congr hmov.id hmov.ownerId, if_neg hst]
      exact Nat.add_right_cancel (hself.trans (congrArg (· + 0) hone))
    · rw [Core.Attempted, hmov.id, hmov.ownerId, hmov.state]
      have hb : ¬ db.core.Attempted row.activity := by
        rw [hrow.attempts, hactive]
        decide
      rcases hsaved with ⟨htgt, rfl⟩ | ⟨rfl, saved, -, hsavedOwn, hsavedAct, rfl⟩
      · refine iff_of_false hb ?_
        rcases hidle with rfl | rfl | rfl
        · decide
        · exact absurd rfl htgt
        · decide
      · refine iff_of_true ⟨saved, ?_, hsavedOwn, hsavedAct⟩ rfl
        exact List.mem_append_right _ (List.mem_singleton.mpr rfl)
  · intro other ho hne
    have hcoupled := h.coupled other ho
    constructor
    · have ho := hcount (Db.isOpenFor other)
      have hfar : Db.isOpenFor other timer = false := by
        simp [Db.isOpenFor, hact, hne.symm]
      rw [hclos, hfar] at ho
      rw [← hcoupled.timers]
      exact Nat.add_right_cancel ho
    · rw [← hcoupled.attempts]
      constructor
      · rintro ⟨att, hatt, hattOwn, hattAct⟩
        rcases hatts att hatt with hold | ⟨-, hself⟩
        · exact ⟨att, hold, hattOwn, hattAct⟩
        · exact absurd (hattAct.symm.trans hself) hne
      · rintro ⟨att, hatt, hattOwn, hattAct⟩
        exact ⟨att, hkept att hatt, hattOwn, hattAct⟩

end Effects

/-! ## One step -/

section Steps

variable {db after : Db} {now : Instant} {event : Event}

theorem Coherent.effect (h : Coherent db.core) (heff : Effect now db after) :
    Coherent after.core := by
  cases heff with
  | quiet core =>
    rw [core]
    exact h
  | @shown ownerId row activity hidden loaded changed activity_eq core =>
    rw [core]
    subst activity_eq
    exact h.quietly loaded rfl rfl (h.coupled row.activity loaded.activity_mem).timers rfl
  | opened key loaded from_state open_day moved free day_eq core =>
    rw [core]
    exact h.opened loaded key from_state moved
  | beat loaded active counted core =>
    rw [core]
    exact h.beat counted
  | ended pausedAt loaded allowed inactive moved counted saved core =>
    rw [core]
    exact h.ended pausedAt loaded inactive moved counted saved
  | @dropped ownerId row activity loaded allowed closed moved core =>
    rw [core]
    apply h.quietly loaded moved.id moved.ownerId
    · rw [moved.state, if_neg (by decide)]
      exact List.countP_eq_zero.mpr fun timer hmem =>
        List.find?_eq_none.mp closed timer hmem
    · have hfrom : ∀ state : ActivityState, (state, ActivityState.incomplete) ∈ transitions →
          state.isCommitted = false := by
        intro state hmem
        cases state <;> simp [transitions] at hmem ⊢ <;> rfl
      rw [moved.state, hfrom _ allowed]
      rfl
  | @reviewed ownerId row activity loaded committed moved core =>
    rw [core]
    apply h.quietly loaded moved.id moved.ownerId
    · rw [(h.coupled row.activity loaded.activity_mem).timers, committed, moved.state]
      rfl
    · rw [moved.state, committed]
      rfl

theorem Coherent.plan {day : StudyDayRow} {activities : List ActivityRow}
    (h : Coherent db.core) (hplan : Planned db day activities) :
    Coherent (db.plan day activities).core := by
  have hkeep : ∀ {ownerId activityId : Nat}, Belongs db.core ownerId activityId →
      Belongs (db.plan day activities).core ownerId activityId := by
    rintro ownerId activityId ⟨activity, hmem, hid, hown⟩
    exact ⟨activity, List.mem_append_left _ hmem, hid, hown⟩
  -- A new activity has an identity that no timer and no attempt names yet.
  have hnew : ∀ activity ∈ activities, ∀ ownerId, ¬ Belongs db.core ownerId activity.id := by
    rintro activity hact ownerId ⟨old, hold, hid, -⟩
    have hold := h.activities.lt old hold
    have hrange : activity.id ∈ List.range' db.activities.next activities.length := by
      rw [← hplan.activity_ids]
      exact List.mem_map_of_mem hact
    have hle := (List.mem_range'_1.mp hrange).1
    simp only [Db.core] at hold
    omega
  constructor
  · exact h.days.append hplan.day_id
  · exact h.activities.appendAll hplan.activity_ids
  · exact h.timers
  · intro timer hmem
    exact hkeep (h.timer_belongs timer hmem)
  · intro att hmem
    exact hkeep (h.attempt_belongs att hmem)
  · intro activity hmem
    rcases List.mem_append.mp hmem with hold | hact
    · exact (h.coupled activity hold).congr rfl rfl
    · have hready := hplan.activity_state activity hact
      constructor
      · rw [hready, if_neg (by decide)]
        apply List.countP_eq_zero.mpr
        intro timer htmr hopen
        simp only [Db.isOpenFor, Bool.and_eq_true, beq_iff_eq] at hopen
        have hbelongs := h.timer_belongs timer htmr
        rw [hopen.1.2] at hbelongs
        exact hnew activity hact _ hbelongs
      · rw [hready]
        refine iff_of_false ?_ (by decide)
        rintro ⟨att, hatt, -, hsame⟩
        have hbelongs := h.attempt_belongs att hatt
        rw [hsame] at hbelongs
        exact hnew activity hact _ hbelongs

theorem Coherent.step (h : Coherent db.core) (hstep : Step db event after) :
    Coherent after.core := by
  cases hstep.effect with
  | planned hplan => exact h.plan hplan
  | call heff => exact h.effect heff
  | elsewhere hcore =>
    rw [hcore]
    exact h

/-! ## What a step leaves alone -/

def Versioned (old new : ActivityRow) : Prop :=
  new.id = old.id ∧ new.optimisticVersion = old.optimisticVersion +
    if new.state = old.state ∧ new.sourceHidden = old.sourceHidden then 0 else 1

theorem versioned_refl (activity : ActivityRow) : Versioned activity activity := by
  simp [Versioned]

theorem Moved.versioned {old new : ActivityRow} (h : Moved old new target)
    (hok : (old.state, target) ∈ transitions) : Versioned old new := by
  refine ⟨h.id, ?_⟩
  have hne : target ≠ old.state := by
    rintro rfl
    revert hok
    cases old.state <;> simp [transitions]
  rw [h.version, h.state, if_neg]
  rintro ⟨hsame, -⟩
  exact hne hsame

theorem versioned_written {old activity : ActivityRow} (h : Coherent db.core)
    (hold : old ∈ db.activities.rows) (hversioned : Versioned old activity) :
    ∀ before ∈ db.activities.rows, ∃ later ∈ (db.writtenActivities activity).rows,
      Versioned before later :=
  h.activities.exists_replace versioned_refl hold hversioned.1 hversioned

theorem Effect.versioned (h : Coherent db.core) (heff : Effect now db after) :
    ∀ before ∈ db.core.activities.rows, ∃ later ∈ after.core.activities.rows,
      Versioned before later := by
  have hsame : ∀ before ∈ db.core.activities.rows, ∃ later ∈ db.core.activities.rows,
      Versioned before later := fun before hmem => ⟨before, hmem, versioned_refl before⟩
  cases heff with
  | quiet core =>
    rw [core]
    exact hsame
  | shown loaded changed activity_eq core =>
    rw [core]
    subst activity_eq
    apply versioned_written h loaded.activity_mem
    refine ⟨rfl, ?_⟩
    rw [if_neg]
    rintro ⟨-, hhidden⟩
    exact changed hhidden.symm
  | opened key loaded from_state open_day moved free day_eq core =>
    rw [core]
    apply versioned_written h loaded.activity_mem
    apply moved.versioned
    rcases from_state with hst | hst <;> simp [hst, transitions]
  | beat loaded active counted core =>
    rw [core]
    exact hsame
  | ended pausedAt loaded allowed inactive moved counted saved core =>
    rw [core]
    exact versioned_written h loaded.activity_mem (moved.versioned allowed)
  | dropped loaded allowed closed moved core =>
    rw [core]
    exact versioned_written h loaded.activity_mem (moved.versioned allowed)
  | reviewed loaded committed moved core =>
    rw [core]
    apply versioned_written h loaded.activity_mem
    apply moved.versioned
    simp [committed, transitions]

def KeepsEnded (before after : Core) : Prop :=
  ∀ timer ∈ before.timers.rows, timer.endedAt ≠ none →
    timer ∈ after.timers.rows ∧ ∀ later ∈ after.timers.rows, later.id = timer.id → later = timer

theorem keepsEnded_written {open_ counted : ActivityTimerSession} (h : Coherent db.core)
    (hopen : open_ ∈ db.timers.rows) (hend : open_.endedAt = none)
    (hid : counted.id = open_.id) :
    ∀ timer ∈ db.timers.rows, timer.endedAt ≠ none →
      timer ∈ (db.writtenTimers counted).rows ∧
        ∀ later ∈ (db.writtenTimers counted).rows, later.id = timer.id → later = timer := by
  intro timer hmem htmr
  have hne : timer.id ≠ counted.id := by
    intro hsame
    have hrow : timer = open_ := h.timers.eq_of_key hmem hopen (hsame.trans hid)
    rw [hrow] at htmr
    exact htmr hend
  refine ⟨Serial.mem_replace_of_ne hmem hne, ?_⟩
  intro later hlat hsame
  rcases Serial.mem_replace hlat with rfl | ⟨hold, -⟩
  · exact absurd hsame.symm hne
  · exact h.timers.eq_of_key hold hmem hsame

theorem Effect.keepsEnded (h : Coherent db.core) (heff : Effect now db after) :
    KeepsEnded db.core after.core := by
  have hsame : ∀ core : Core, core.timers = db.core.timers → KeepsEnded db.core core := by
    intro core htimers timer hmem _
    rw [htimers]
    exact ⟨hmem, fun later hlat hid => h.timers.eq_of_key hlat hmem hid⟩
  cases heff with
  | quiet core =>
    rw [core]
    exact hsame _ rfl
  | shown loaded changed activity_eq core =>
    rw [core]
    exact hsame _ rfl
  | opened key loaded from_state open_day moved free day_eq core =>
    rw [core]
    intro timer hmem _
    refine ⟨List.mem_append_left _ hmem, ?_⟩
    intro later hlat hid
    rcases List.mem_append.mp hlat with hold | hnew
    · exact h.timers.eq_of_key hold hmem hid
    · obtain rfl := List.mem_singleton.mp hnew
      have hlt := h.timers.lt timer hmem
      exact absurd hid (Nat.ne_of_gt hlt)
  | beat loaded active counted core =>
    rw [core]
    obtain ⟨hmem, -, -, hend⟩ := openTimer_spec counted.found
    exact keepsEnded_written h hmem hend rfl
  | ended pausedAt loaded allowed inactive moved counted saved core =>
    rw [core]
    obtain ⟨hmem, -, -, hend⟩ := openTimer_spec counted.found
    exact keepsEnded_written h hmem hend rfl
  | dropped loaded allowed closed moved core =>
    rw [core]
    exact hsame _ rfl
  | reviewed loaded committed moved core =>
    rw [core]
    exact hsame _ rfl

structure Disciplined (step : Transition Db Event) : Prop where
  versions : ∀ activity ∈ step.before.activities.rows,
    ∃ later ∈ step.after.activities.rows, Versioned activity later
  ended : KeepsEnded step.before.core step.after.core
  failed : ∀ call error, step.label = .call call (.error error) → step.after = step.before

theorem Step.failed {call : Call} {error : ActivityError}
    (h : Step db (.call call (.error error)) after) : after = db := by
  generalize hev : Event.call call (Except.error error) = event at h
  cases h with
  | executed call' =>
    obtain ⟨rfl, hout⟩ := Event.call.inj hev
    exact execute_error hout.symm
  | unavailable call' => rfl
  | planned => cases hev
  | elsewhere => cases hev

theorem disciplined_step (h : Coherent db.core) (hstep : Step db event after) :
    Disciplined ⟨db, event, after⟩ := by
  constructor
  · cases hstep.effect with
    | planned hplan =>
      intro activity hmem
      exact ⟨activity, List.mem_append_left _ hmem, versioned_refl activity⟩
    | call heff => exact heff.versioned h
    | elsewhere hcore =>
      have heff : Effect 0 db after := .quiet hcore
      exact heff.versioned h
  · cases hstep.effect with
    | planned hplan =>
      intro timer hmem _
      exact ⟨hmem, fun later hlat hid => h.timers.eq_of_key hlat hmem hid⟩
    | call heff => exact heff.keepsEnded h
    | elsewhere hcore =>
      have heff : Effect 0 db after := .quiet hcore
      exact heff.keepsEnded h
  · intro call error hlab
    subst hlab
    exact hstep.failed

end Steps

/-- In every run, every activity keeps exactly one open timer while it is
active and none otherwise, an attempt exists exactly from the commitment on,
and every step counts versions, leaves ended timers alone and, when it fails,
changes nothing. -/
theorem activities_coherent_of_run {start final : Db} {trace : List (Transition Db Event)}
    (hinitial : Initial start) (hrun : Run Step start trace final) :
    (∀ activity ∈ final.activities.rows, Coupled final.core activity) ∧
      ∀ step ∈ trace, Disciplined step := by
  have hstart := coherent_of_initial hinitial
  have hpreserve : ∀ s a t, Coherent (Db.core s) → Step s a t → Coherent (Db.core t) :=
    fun _ _ _ h hstep => h.step hstep
  constructor
  · have hfinal : Coherent final.core :=
      hrun.state_invariant (I := fun db => Coherent db.core) hstart hpreserve
    exact hfinal.coupled
  · exact hrun.forall_transition (I := fun db => Coherent db.core) hstart hpreserve
      fun _ _ _ h hstep => disciplined_step h hstep

/-- Both activities of the sample day are active, each with its one timer. -/
theorem activities_coherent_sample :
    (sampleFinal.activities.rows.map fun activity =>
      (activity.state, sampleFinal.core.openCount activity)) = [(.active, 1), (.active, 1)] ∧
      (∀ activity ∈ sampleFinal.activities.rows, Coupled sampleFinal.core activity) ∧
      ∀ step ∈ sampleTrace, Disciplined step :=
  ⟨by decide +kernel, activities_coherent_of_run initial_sampleStore run_sample⟩

end TamForge.Learning.ActivityService
