import TamForge.Learning.Proofs.Coherence

/-!
# Focused time

The seconds that the timers of a day have counted stay under its hard stop and
are what the day reports.  One heartbeat adds a bounded part of the time since
the previous one.
-/

namespace TamForge.Learning.ActivityService

open Models ProofSupport

/-! ## Totals -/

def Core.seconds (core : Core) (p : ActivityTimerSession → Bool) : Nat :=
  (core.timers.rows.map fun timer => if p timer then timer.countedSeconds else 0).sum

theorem sum_map_filter (p : ActivityTimerSession → Bool) (timers : List ActivityTimerSession) :
    ((timers.filter p).map fun timer => timer.countedSeconds).sum =
      (timers.map fun timer => if p timer then timer.countedSeconds else 0).sum := by
  induction timers with
  | nil => rfl
  | cons timer rest ih =>
    by_cases hp : p timer = true
    · simp [hp, ih]
    · simp [hp, ih]

theorem daySeconds_eq (db : Db) (ownerId dayId : Nat) :
    db.daySeconds ownerId dayId = db.core.seconds (db.timerOfDay ownerId dayId) :=
  sum_map_filter _ _

variable {core : Core} {p : ActivityTimerSession → Bool}

theorem seconds_congr {q : ActivityTimerSession → Bool}
    (h : ∀ timer ∈ core.timers.rows, p timer = q timer) : core.seconds p = core.seconds q := by
  unfold Core.seconds
  congr 1
  apply List.map_congr_left
  intro timer hmem
  rw [h timer hmem]

variable {days : Serial StudyDayRow} {attempts : Serial AttemptRow}

/-- A new timer has counted nothing. -/
theorem seconds_insert {db : Db} {activities : Serial ActivityRow} (ownerId activityId : Nat)
    (key : String) (now : Instant) :
    Core.seconds ⟨days, activities,
        (db.timers.insert fun _ => newTimer db ownerId activityId key now).2, attempts⟩ p =
      db.core.seconds p := by
  unfold Core.seconds
  rw [Serial.insert_rows, List.map_append, List.sum_append]
  simp only [List.map_cons, List.map_nil, List.sum_singleton, Serial.insert, newTimer, startTimer]
  split <;> rfl

theorem seconds_written {db : Db} {activities : Serial ActivityRow}
    {timer counted : ActivityTimerSession} {added : Nat} (h : Coherent db.core)
    (hmem : timer ∈ db.timers.rows) (hid : counted.id = timer.id) (hp : p counted = p timer)
    (hcnt : counted.countedSeconds = timer.countedSeconds + added) :
    Core.seconds ⟨days, activities, db.writtenTimers counted, attempts⟩ p =
      db.core.seconds p + if p timer then added else 0 := by
  have hsum := h.timers.sum_replace hmem hid
    fun timer => if p timer then timer.countedSeconds else 0
  simp only [hp, hcnt] at hsum
  unfold Core.seconds
  simp only [Db.writtenTimers, Db.core] at hsum ⊢
  by_cases hsel : p timer = true
  · simp only [hsel, if_true] at hsum ⊢
    omega
  · simp only [hsel] at hsum ⊢
    simpa using hsum

/-! ## The timers of a day -/

def Core.ofDay (core : Core) (ownerId dayId : Nat) (timer : ActivityTimerSession) : Bool :=
  core.activities.rows.any fun activity => activity.ownerId == timer.ownerId &&
    activity.id == timer.activityInstanceId && activity.ownerId == ownerId &&
    activity.studyDayId == dayId

/-- The total that `_day_seconds` reads. -/
def Core.daySeconds (core : Core) (day : StudyDayRow) : Nat :=
  core.seconds (core.ofDay day.ownerId day.id)

theorem ofDay_iff (h : Coherent core) {timer : ActivityTimerSession} {activity : ActivityRow}
    (hact : activity ∈ core.activities.rows) (hid : timer.activityInstanceId = activity.id)
    (hown : timer.ownerId = activity.ownerId) (ownerId dayId : Nat) :
    core.ofDay ownerId dayId timer = true ↔
      activity.ownerId = ownerId ∧ activity.studyDayId = dayId := by
  simp only [Core.ofDay, List.any_eq_true, Bool.and_eq_true, beq_iff_eq]
  constructor
  · rintro ⟨found, hf, ⟨⟨-, hfoundId⟩, hfoundOwn⟩, hfoundDay⟩
    obtain rfl := h.activities.eq_of_key hf hact (hfoundId.trans hid)
    exact ⟨hfoundOwn, hfoundDay⟩
  · rintro ⟨hactOwn, hday⟩
    exact ⟨activity, hact, ⟨⟨hown.symm, hid.symm⟩, hactOwn⟩, hday⟩

variable {timers : Serial ActivityTimerSession}

theorem ofDay_written {db : Db} {old activity : ActivityRow} (h : Coherent db.core)
    (hold : old ∈ db.activities.rows) (hid : activity.id = old.id)
    (hown : activity.ownerId = old.ownerId) (hday : activity.studyDayId = old.studyDayId)
    (ownerId dayId : Nat) :
    Core.ofDay ⟨days, db.writtenActivities activity, timers, attempts⟩ ownerId dayId =
      db.core.ofDay ownerId dayId := by
  funext timer
  obtain ⟨before, after, hrows, hrepl⟩ := h.activities.split_replace hold hid
  have hwr : (db.writtenActivities activity).rows = before ++ activity :: after := hrepl
  have hdb : db.core.activities.rows = before ++ old :: after := hrows
  simp only [Core.ofDay, hwr, hdb, List.any_append, List.any_cons, hid, hown, hday]

/-! ## The account of a day -/

def Accounted (core : Core) (day : StudyDayRow) : Prop :=
  core.daySeconds day ≤ maximumMinutes day.dayType * 60 ∧
    day.focusedMinutes = core.daySeconds day / 60

structure Focused (core : Core) : Prop where
  scheduled : ∀ activity ∈ core.activities.rows, ∃ day ∈ core.days.rows,
    day.id = activity.studyDayId ∧ day.ownerId = activity.ownerId
  accounted : ∀ day ∈ core.days.rows, Accounted core day

theorem focused_of_initial {db : Db} (h : Initial db) : Focused db.core := by
  have hnil : ∀ {α : Type}, (Serial.empty : Serial α).rows = [] := rfl
  constructor
  · simp [Db.core, h.activities, hnil]
  · simp [Db.core, h.days, hnil]

section Written

variable {db : Db} {old new day : StudyDayRow}

theorem mem_writtenDays (h : Coherent db.core) (hold : old ∈ db.days.rows)
    (hid : new.id = old.id) (hmem : day ∈ (db.writtenDays old new).rows) :
    day = new ∨ (day ∈ db.days.rows ∧ day.id ≠ old.id) := by
  unfold Db.writtenDays at hmem
  split at hmem
  · rename_i hsame
    by_cases hday : day.id = old.id
    · exact Or.inl ((h.days.eq_of_key hmem hold hday).trans hsame.symm)
    · exact Or.inr ⟨hmem, hday⟩
  · rcases Serial.mem_replace hmem with rfl | ⟨hrow, hne⟩
    · exact Or.inl rfl
    · exact Or.inr ⟨hrow, hid ▸ hne⟩

theorem exists_writtenDays (h : Coherent db.core) (hold : old ∈ db.days.rows)
    (hid : new.id = old.id) (hmem : day ∈ db.days.rows) :
    (day = old ∧ new ∈ (db.writtenDays old new).rows) ∨
      (day.id ≠ old.id ∧ day ∈ (db.writtenDays old new).rows) := by
  unfold Db.writtenDays
  by_cases hday : day.id = old.id
  · have hsame : day = old := h.days.eq_of_key hmem hold hday
    refine Or.inl ⟨hsame, ?_⟩
    split
    · rename_i hnew
      rw [hnew]
      exact hold
    · exact Serial.mem_replace_self hold hid
  · refine Or.inr ⟨hday, ?_⟩
    split
    · exact hmem
    · exact Serial.mem_replace_of_ne hmem (hid ▸ hday)

theorem Focused.write {activities : Serial ActivityRow} (h : Focused db.core)
    (hcoh : Coherent db.core) (hold : old ∈ db.days.rows) (hid : new.id = old.id)
    (hown : new.ownerId = old.ownerId)
    (hacts : ∀ activity ∈ activities.rows, ∃ before ∈ db.activities.rows,
      activity.studyDayId = before.studyDayId ∧ activity.ownerId = before.ownerId)
    (hself : Accounted ⟨db.writtenDays old new, activities, timers, attempts⟩ new)
    (ho : ∀ other ∈ db.days.rows, other.id ≠ old.id →
      Core.daySeconds ⟨db.writtenDays old new, activities, timers, attempts⟩ other =
        db.core.daySeconds other)
    : Focused ⟨db.writtenDays old new, activities, timers, attempts⟩ := by
  constructor
  · intro activity hmem
    obtain ⟨before, hb, hday, hactOwn⟩ := hacts activity hmem
    obtain ⟨day, hdayMem, hdayId, hdayOwn⟩ := h.scheduled before hb
    rcases exists_writtenDays hcoh hold hid hdayMem with ⟨rfl, hnew⟩ | ⟨-, hkept⟩
    · exact ⟨new, hnew, by rw [hid, hdayId, hday], by rw [hown, hdayOwn, hactOwn]⟩
    · exact ⟨day, hkept, by rw [hdayId, hday], by rw [hdayOwn, hactOwn]⟩
  · intro day hmem
    rcases mem_writtenDays hcoh hold hid hmem with rfl | ⟨hrow, hne⟩
    · exact hself
    · have haccounted := h.accounted day hrow
      rw [Accounted, ho day hrow hne]
      exact haccounted

end Written

/-! ## One effect -/

section Effects

variable {db after : Db} {ownerId : Nat} {row : LockedActivity} {activity : ActivityRow}
  {timer counted : ActivityTimerSession} {now : Instant} {added sequence : Nat}
  {day : StudyDayRow}

theorem written_scheduled (hload : Loaded db ownerId row)
    (hday : activity.studyDayId = row.activity.studyDayId)
    (hown : activity.ownerId = row.activity.ownerId) :
    ∀ other ∈ (db.writtenActivities activity).rows, ∃ before ∈ db.activities.rows,
      other.studyDayId = before.studyDayId ∧ other.ownerId = before.ownerId := by
  intro other hmem
  rcases Serial.mem_replace hmem with rfl | ⟨hrow, -⟩
  · exact ⟨row.activity, hload.activity_mem, hday, hown⟩
  · exact ⟨other, hrow, rfl, rfl⟩

theorem Focused.quietly (h : Focused db.core) (hcoh : Coherent db.core)
    (hload : Loaded db ownerId row) (hid : activity.id = row.activity.id)
    (hown : activity.ownerId = row.activity.ownerId)
    (hday : activity.studyDayId = row.activity.studyDayId) :
    Focused { db.core with activities := db.writtenActivities activity } := by
  constructor
  · intro other hmem
    obtain ⟨before, hb, hsameDay, hsameOwn⟩ :=
      written_scheduled hload hday hown other hmem
    rw [hsameDay, hsameOwn]
    exact h.scheduled before hb
  · intro other hmem
    have haccounted := h.accounted other hmem
    rw [Accounted, Core.daySeconds, ofDay_written hcoh hload.activity_mem hid hown hday]
    exact haccounted

theorem Focused.opened (h : Focused db.core) (hcoh : Coherent db.core)
    (hload : Loaded db ownerId row) (key : String) (hmov : Moved row.activity activity .active)
    (hday : day = row.day ∨ day = { row.day with status := .inProgress, startedAt := some now }) :
    Focused ⟨db.writtenDays row.day day, db.writtenActivities activity,
      (db.timers.insert fun _ => newTimer db ownerId row.activity.id key now).2, attempts⟩ := by
  have hsecs : ∀ other : StudyDayRow, Core.daySeconds ⟨db.writtenDays row.day day,
      db.writtenActivities activity,
      (db.timers.insert fun _ => newTimer db ownerId row.activity.id key now).2, attempts⟩
        other = db.core.daySeconds other := by
    intro other
    rw [Core.daySeconds, seconds_insert, ofDay_written hcoh hload.activity_mem hmov.id
      hmov.ownerId hmov.studyDayId]
    rfl
  have haccounted := h.accounted row.day hload.day_mem
  have hsame : day.id = row.day.id ∧ day.ownerId = row.day.ownerId ∧
      day.dayType = row.day.dayType ∧ day.focusedMinutes = row.day.focusedMinutes := by
    rcases hday with rfl | rfl <;> exact ⟨rfl, rfl, rfl, rfl⟩
  obtain ⟨hid, hown, htype, hfocused⟩ := hsame
  apply h.write hcoh hload.day_mem hid hown
    (written_scheduled hload hmov.studyDayId hmov.ownerId)
  · have htot : db.core.daySeconds day = db.core.daySeconds row.day := by
      rw [Core.daySeconds, hid, hown]
      rfl
    rw [Accounted, hsecs, htot, htype, hfocused]
    exact haccounted
  · intro other _ _
    exact hsecs other

theorem daySeconds_beat {activities : Serial ActivityRow} (hcoh : Coherent db.core)
    (hload : Loaded db ownerId row) (hcnt : Beat db row now timer added sequence day)
    (hid : counted.id = timer.id)
    (hact : counted.activityInstanceId = timer.activityInstanceId)
    (howner : counted.ownerId = timer.ownerId)
    (hsecs : counted.countedSeconds = timer.countedSeconds + added)
    (hofDay : ∀ ownerId dayId, Core.ofDay ⟨days, activities, db.writtenTimers counted, attempts⟩
      ownerId dayId = db.core.ofDay ownerId dayId)
    (other : StudyDayRow) :
    Core.daySeconds ⟨days, activities, db.writtenTimers counted, attempts⟩ other =
      db.core.daySeconds other +
        if row.activity.ownerId = other.ownerId ∧ row.activity.studyDayId = other.id
          then added else 0 := by
  obtain ⟨hmem, htmrOwn, htmrAct, -⟩ := openTimer_spec hcnt.found
  have hsel : db.core.ofDay other.ownerId other.id counted =
      db.core.ofDay other.ownerId other.id timer := by
    simp only [Core.ofDay, hact, howner]
  rw [Core.daySeconds, hofDay, seconds_written hcoh hmem hid hsel hsecs]
  have hday := ofDay_iff hcoh hload.activity_mem htmrAct htmrOwn
    other.ownerId other.id
  by_cases hown : row.activity.ownerId = other.ownerId ∧ row.activity.studyDayId = other.id
  · rw [if_pos (hday.mpr hown), if_pos hown]
    rfl
  · rw [if_neg (fun hsel => hown (hday.mp hsel)), if_neg hown]
    rfl

theorem Focused.count {activities : Serial ActivityRow} (h : Focused db.core)
    (hcoh : Coherent db.core) (hload : Loaded db ownerId row)
    (hcnt : Beat db row now timer added sequence day) (hid : counted.id = timer.id)
    (hact : counted.activityInstanceId = timer.activityInstanceId)
    (hown : counted.ownerId = timer.ownerId)
    (hsecs : counted.countedSeconds = timer.countedSeconds + added)
    (hschedd : ∀ activity ∈ activities.rows, ∃ before ∈ db.activities.rows,
      activity.studyDayId = before.studyDayId ∧ activity.ownerId = before.ownerId)
    (hofDay : ∀ ownerId dayId, Core.ofDay ⟨db.writtenDays row.day day, activities,
      db.writtenTimers counted, attempts⟩ ownerId dayId = db.core.ofDay ownerId dayId)
    : Focused ⟨db.writtenDays row.day day, activities, db.writtenTimers counted, attempts⟩ := by
  have htot := daySeconds_beat hcoh hload hcnt hid hact hown hsecs hofDay
  have hrow : db.daySeconds row.activity.ownerId row.day.id = db.core.daySeconds row.day := by
    rw [daySeconds_eq, Core.daySeconds, hload.day_owner, hload.activity_owner]
    rfl
  have hdayEq := hcnt.day_eq
  have hcapped := hcnt.capped
  rw [hrow] at hdayEq hcapped
  obtain ⟨hle, -⟩ := h.accounted row.day hload.day_mem
  apply h.write hcoh hload.day_mem (by rw [hdayEq]) (by rw [hdayEq]) hschedd
  · have hself : Core.daySeconds ⟨db.writtenDays row.day day, activities,
        db.writtenTimers counted, attempts⟩ day = db.core.daySeconds row.day + added := by
      rw [htot, hdayEq, if_pos ⟨hload.activity_owner.trans hload.day_owner.symm,
        hload.day_id.symm⟩]
      rfl
    rw [Accounted, hself, hdayEq]
    refine ⟨?_, ?_⟩
    · show db.core.daySeconds row.day + added ≤ maximumMinutes row.day.dayType * 60
      omega
    · show min (maximumMinutes row.day.dayType) ((db.core.daySeconds row.day + added) / 60) =
        (db.core.daySeconds row.day + added) / 60
      omega
  · intro other _ hne
    rw [htot, if_neg, Nat.add_zero]
    rintro ⟨-, hday⟩
    exact hne (hday.symm.trans hload.day_id.symm)

theorem Focused.effect (h : Focused db.core) (hcoh : Coherent db.core)
    (heff : Effect now db after) : Focused after.core := by
  cases heff with
  | quiet core =>
    rw [core]
    exact h
  | shown loaded changed activity_eq core =>
    rw [core]
    subst activity_eq
    exact h.quietly hcoh loaded rfl rfl rfl
  | opened key loaded from_state open_day moved free day_eq core =>
    rw [core]
    exact h.opened hcoh loaded key moved day_eq
  | beat loaded active counted core =>
    rw [core]
    apply h.count hcoh loaded counted
    · rfl
    · rfl
    · rfl
    · rfl
    · intro activity hmem
      exact ⟨activity, hmem, rfl, rfl⟩
    · intro ownerId dayId
      rfl
  | ended pausedAt loaded allowed inactive moved counted saved core =>
    rw [core]
    apply h.count hcoh loaded counted
    · rfl
    · rfl
    · rfl
    · rfl
    · exact written_scheduled loaded moved.studyDayId moved.ownerId
    · exact ofDay_written hcoh loaded.activity_mem moved.id moved.ownerId moved.studyDayId
  | dropped loaded allowed closed moved core =>
    rw [core]
    exact h.quietly hcoh loaded moved.id moved.ownerId moved.studyDayId
  | reviewed loaded committed moved core =>
    rw [core]
    exact h.quietly hcoh loaded moved.id moved.ownerId moved.studyDayId

end Effects

/-! ## One step -/

section Steps

variable {db after : Db} {now : Instant} {event : Event}

theorem ofDay_plan {day : StudyDayRow} {activities : List ActivityRow}
    {timer : ActivityTimerSession} (hcoh : Coherent db.core)
    (hplan : Planned db day activities) (htmr : timer ∈ db.timers.rows)
    (ownerId dayId : Nat) :
    (db.plan day activities).core.ofDay ownerId dayId timer =
      db.core.ofDay ownerId dayId timer := by
  obtain ⟨activity, hact, hid, hown⟩ := hcoh.timer_belongs timer htmr
  have ha := hcoh.plan hplan
  have hmem : activity ∈ (db.plan day activities).core.activities.rows :=
    List.mem_append_left _ hact
  have hold := ofDay_iff hcoh hact hid.symm hown.symm ownerId dayId
  have hnew := ofDay_iff ha hmem hid.symm hown.symm ownerId dayId
  exact Bool.eq_iff_iff.mpr (hnew.trans hold.symm)

theorem Focused.plan {day : StudyDayRow} {activities : List ActivityRow}
    (h : Focused db.core) (hcoh : Coherent db.core) (hplan : Planned db day activities) :
    Focused (db.plan day activities).core := by
  have hsecs : ∀ other : StudyDayRow,
      (db.plan day activities).core.daySeconds other = db.core.daySeconds other := by
    intro other
    have hcongr : db.core.seconds ((db.plan day activities).core.ofDay other.ownerId other.id) =
        db.core.daySeconds other := 
      seconds_congr fun timer htmr => ofDay_plan hcoh hplan htmr _ _
    exact hcongr
  constructor
  · intro activity hmem
    rcases List.mem_append.mp hmem with hold | hnew
    · obtain ⟨found, hf, hid, hown⟩ := h.scheduled activity hold
      exact ⟨found, List.mem_append_left _ hf, hid, hown⟩
    · exact ⟨day, List.mem_append_right _ (List.mem_singleton.mpr rfl),
        (hplan.activity_day activity hnew).symm, (hplan.activity_owner activity hnew).symm⟩
  · intro other hmem
    rw [Accounted, hsecs]
    rcases List.mem_append.mp hmem with hold | hnew
    · exact h.accounted other hold
    · have hzero : db.core.daySeconds day = 0 := by
        apply List.sum_eq_zero_iff_forall_eq_nat.mpr
        intro value hval
        obtain ⟨timer, htmr, rfl⟩ := List.mem_map.mp hval
        obtain ⟨activity, hact, hid, hown⟩ := hcoh.timer_belongs timer htmr
        rw [if_neg]
        intro hsel
        obtain ⟨-, hday⟩ :=
          (ofDay_iff hcoh hact hid.symm hown.symm _ _).mp hsel
        obtain ⟨found, hf, hfoundId, -⟩ := h.scheduled activity hact
        have hlt := hcoh.days.lt found hf
        have hnext := hplan.day_id
        simp only [Db.core] at hlt
        omega
      rw [List.mem_singleton.mp hnew, hzero]
      exact ⟨Nat.zero_le _, hplan.day_focused⟩

theorem Focused.step (h : Focused db.core) (hcoh : Coherent db.core)
    (hstep : Step db event after) : Focused after.core := by
  cases hstep.effect with
  | planned hplan => exact h.plan hcoh hplan
  | call heff => exact h.effect hcoh heff
  | elsewhere hcore =>
    rw [hcore]
    exact h

/-! ## How time accumulates in one step -/

/-- The row of a session in the next state: as it was counted, or after one
accepted heartbeat. -/
def CountsOn (old new : ActivityTimerSession) : Prop :=
  new.id = old.id ∧
    ((new.countedSeconds = old.countedSeconds ∧ new.lastHeartbeatAt = old.lastHeartbeatAt ∧
        new.lastClientSequence = old.lastClientSequence) ∨
      (old.lastClientSequence < new.lastClientSequence ∧
        ∃ added ≤ 30, new.countedSeconds = old.countedSeconds + added ∧
          seconds added ≤ new.lastHeartbeatAt - old.lastHeartbeatAt))

theorem countsOn_refl (timer : ActivityTimerSession) : CountsOn timer timer :=
  ⟨rfl, Or.inl ⟨rfl, rfl, rfl⟩⟩

theorem countsOn_written {timer counted : ActivityTimerSession} (h : Coherent db.core)
    (hmem : timer ∈ db.timers.rows) (hcounts : CountsOn timer counted) :
    ∀ before ∈ db.timers.rows, ∃ later ∈ (db.writtenTimers counted).rows,
      CountsOn before later :=
  h.timers.exists_replace countsOn_refl hmem hcounts.1 hcounts

theorem Effect.countsOn (h : Coherent db.core) (heff : Effect now db after) :
    ∀ before ∈ db.core.timers.rows, ∃ later ∈ after.core.timers.rows,
      CountsOn before later := by
  have hsame : ∀ before ∈ db.core.timers.rows, ∃ later ∈ db.core.timers.rows,
      CountsOn before later := fun before hmem => ⟨before, hmem, countsOn_refl before⟩
  cases heff with
  | quiet core =>
    rw [core]
    exact hsame
  | shown loaded changed activity_eq core =>
    rw [core]
    exact hsame
  | opened key loaded from_state open_day moved free day_eq core =>
    rw [core]
    intro before hmem
    exact ⟨before, List.mem_append_left _ hmem, countsOn_refl before⟩
  | beat loaded active counted core =>
    rw [core]
    apply countsOn_written h (openTimer_spec counted.found).1
    exact ⟨rfl, Or.inr ⟨counted.sequence_lt, _, counted.gap, rfl, counted.elapsed⟩⟩
  | ended pausedAt loaded allowed inactive moved counted saved core =>
    rw [core]
    apply countsOn_written h (openTimer_spec counted.found).1
    exact ⟨rfl, Or.inr ⟨counted.sequence_lt, _, counted.gap, rfl, counted.elapsed⟩⟩
  | dropped loaded allowed closed moved core =>
    rw [core]
    exact hsame
  | reviewed loaded committed moved core =>
    rw [core]
    exact hsame

theorem grows_written {old new : StudyDayRow} (h : Coherent db.core)
    (hold : old ∈ db.days.rows) (hid : new.id = old.id)
    (hle : old.focusedMinutes ≤ new.focusedMinutes) :
    ∀ before ∈ db.days.rows, ∃ later ∈ (db.writtenDays old new).rows,
      later.id = before.id ∧ before.focusedMinutes ≤ later.focusedMinutes := by
  intro before hmem
  rcases exists_writtenDays h hold hid hmem with ⟨rfl, hnew⟩ | ⟨-, hkept⟩
  · exact ⟨new, hnew, hid, hle⟩
  · exact ⟨before, hkept, rfl, le_refl _⟩

theorem Beat.grows {ownerId : Nat} {row : LockedActivity} {timer : ActivityTimerSession}
    {added sequence : Nat} {day : StudyDayRow} (h : Focused db.core)
    (hload : Loaded db ownerId row) (hcnt : Beat db row now timer added sequence day) :
    day.id = row.day.id ∧ row.day.focusedMinutes ≤ day.focusedMinutes := by
  have hrow : db.daySeconds row.activity.ownerId row.day.id = db.core.daySeconds row.day := by
    rw [daySeconds_eq, Core.daySeconds, hload.day_owner, hload.activity_owner]
    rfl
  obtain ⟨hle, hmins⟩ := h.accounted row.day hload.day_mem
  rw [hcnt.day_eq, hrow, hmins]
  refine ⟨rfl, ?_⟩
  show db.core.daySeconds row.day / 60 ≤
    min (maximumMinutes row.day.dayType) ((db.core.daySeconds row.day + added) / 60)
  omega

theorem Effect.grows (h : Focused db.core) (hcoh : Coherent db.core)
    (heff : Effect now db after) :
    ∀ before ∈ db.core.days.rows, ∃ later ∈ after.core.days.rows,
      later.id = before.id ∧ before.focusedMinutes ≤ later.focusedMinutes := by
  have hsame : ∀ before ∈ db.core.days.rows, ∃ later ∈ db.core.days.rows,
      later.id = before.id ∧ before.focusedMinutes ≤ later.focusedMinutes :=
    fun before hmem => ⟨before, hmem, rfl, le_refl _⟩
  cases heff with
  | quiet core =>
    rw [core]
    exact hsame
  | shown loaded changed activity_eq core =>
    rw [core]
    exact hsame
  | opened key loaded from_state open_day moved free day_eq core =>
    rw [core]
    apply grows_written hcoh loaded.day_mem
    · rcases day_eq with rfl | rfl <;> rfl
    · rcases day_eq with rfl | rfl <;> exact le_refl _
  | beat loaded active counted core =>
    rw [core]
    obtain ⟨hid, hle⟩ := counted.grows h loaded
    exact grows_written hcoh loaded.day_mem hid hle
  | ended pausedAt loaded allowed inactive moved counted saved core =>
    rw [core]
    obtain ⟨hid, hle⟩ := counted.grows h loaded
    exact grows_written hcoh loaded.day_mem hid hle
  | dropped loaded allowed closed moved core =>
    rw [core]
    exact hsame
  | reviewed loaded committed moved core =>
    rw [core]
    exact hsame

structure Accumulates (step : Transition Db Event) : Prop where
  minutes : ∀ day ∈ step.before.days.rows, ∃ later ∈ step.after.days.rows,
    later.id = day.id ∧ day.focusedMinutes ≤ later.focusedMinutes
  sessions : ∀ timer ∈ step.before.timers.rows, ∃ later ∈ step.after.timers.rows,
    CountsOn timer later

theorem accumulates_step (h : Focused db.core) (hcoh : Coherent db.core)
    (hstep : Step db event after) : Accumulates ⟨db, event, after⟩ := by
  constructor
  · cases hstep.effect with
    | planned hplan =>
      intro day hmem
      exact ⟨day, List.mem_append_left _ hmem, rfl, le_refl _⟩
    | call heff => exact heff.grows h hcoh
    | elsewhere hcore =>
      have heff : Effect 0 db after := .quiet hcore
      exact heff.grows h hcoh
  · cases hstep.effect with
    | planned hplan =>
      intro timer hmem
      exact ⟨timer, hmem, countsOn_refl timer⟩
    | call heff => exact heff.countsOn hcoh
    | elsewhere hcore =>
      have heff : Effect 0 db after := .quiet hcore
      exact heff.countsOn hcoh

end Steps

theorem maximumMinutes_seconds (dayType : DayType) :
    maximumMinutes dayType * 60 = if dayType = .saturday then 7200 else 15300 := by
  unfold maximumMinutes
  split <;> rfl

/-- In every run, whatever the clocks and the sequences of its calls, the
seconds of a day stay under its hard stop and the day reports their minutes;
no step takes minutes away, and a heartbeat adds at most thirty seconds and at
most the time since the one before it, under a larger sequence. -/
theorem daily_cap_of_run {start final : Db} {trace : List (Transition Db Event)}
    (hinitial : Initial start) (hrun : Run Step start trace final) :
    (∀ day ∈ final.days.rows,
      final.daySeconds day.ownerId day.id ≤
          (if day.dayType = .saturday then 7200 else 15300) ∧
        day.focusedMinutes = final.daySeconds day.ownerId day.id / 60) ∧
      ∀ step ∈ trace, Accumulates step := by
  have hstart : Coherent start.core ∧ Focused start.core :=
    ⟨coherent_of_initial hinitial, focused_of_initial hinitial⟩
  have hpreserve : ∀ s a t, Coherent (Db.core s) ∧ Focused (Db.core s) → Step s a t →
      Coherent (Db.core t) ∧ Focused (Db.core t) := by
    rintro s a t ⟨hcoherent, hfocused⟩ hstep
    exact ⟨hcoherent.step hstep, hfocused.step hcoherent hstep⟩
  constructor
  · obtain ⟨-, hfocused⟩ :=
      hrun.state_invariant (I := fun db => Coherent db.core ∧ Focused db.core) hstart hpreserve
    intro day hmem
    rw [daySeconds_eq, ← maximumMinutes_seconds]
    exact hfocused.accounted day hmem
  · exact hrun.forall_transition (I := fun db => Coherent db.core ∧ Focused db.core) hstart
      hpreserve fun _ _ _ h hstep => accumulates_step h.2 h.1 hstep

/-- The sample day counts a minute over its two sessions. -/
theorem daily_cap_sample :
    (sampleFinal.days.rows.map fun day =>
      (sampleFinal.daySeconds day.ownerId day.id, day.focusedMinutes)) = [(60, 1)] ∧
      (∀ day ∈ sampleFinal.days.rows,
        sampleFinal.daySeconds day.ownerId day.id ≤
            (if day.dayType = .saturday then 7200 else 15300) ∧
          day.focusedMinutes = sampleFinal.daySeconds day.ownerId day.id / 60) ∧
      ∀ step ∈ sampleTrace, Accumulates step :=
  ⟨by decide +kernel, daily_cap_of_run initial_sampleStore run_sample⟩

end TamForge.Learning.ActivityService
