import Mathlib.Algebra.BigOperators.Group.List.Basic
import TamForge.Learning.Proofs.FocusedTime
import TamForge.Today.Repository

/-!
# A closed day is final

Runs interleave the calls of the activity service with closes of any day.  A day
that has ended keeps its row, because work becomes active on open days only and
only active work counts time, and a close keeps its row because nothing writes a
second one for its day.
-/

namespace TamForge.Today

open Learning Models ProofSupport
open Learning.ActivityService (ActivityRow ActivityTimerSession StudyDayRow Core Coherent
  Focused Effect Loaded)

/-! ## A day that has ended -/

section Ended

structure Ended (core : Core) (day : StudyDayRow) : Prop where
  mem : day ∈ core.days.rows
  status : day.status = .closed ∨ day.status = .incomplete
  inactive : ∀ activity ∈ core.activities.rows, activity.studyDayId = day.id →
    activity.state ≠ .active

variable {db after : ActivityService.Db} {day old new : StudyDayRow} {activity : ActivityRow}
  {row : ActivityService.LockedActivity} {ownerId : Nat} {now : Instant}

theorem Ended.written (h : Ended db.core day)
    (hnew : activity.studyDayId = day.id → activity.state ≠ .active) :
    ∀ other ∈ (db.writtenActivities activity).rows, other.studyDayId = day.id →
      other.state ≠ .active := by
  intro other hmem hday
  rcases Serial.mem_replace hmem with rfl | ⟨hrow, -⟩
  · exact hnew hday
  · exact h.inactive other hrow hday

theorem Ended.kept (h : Ended db.core day) (hcoh : Coherent db.core)
    (hold : old ∈ db.days.rows) (hid : new.id = old.id) (hne : old.id ≠ day.id) :
    day ∈ (db.writtenDays old new).rows := by
  rcases ActivityService.exists_writtenDays hcoh hold hid h.mem with ⟨rfl, -⟩ | ⟨-, hkept⟩
  · exact absurd rfl hne
  · exact hkept

theorem Ended.other_of_active (h : Ended db.core day) (hload : Loaded db ownerId row)
    (hact : row.activity.state = .active) : row.day.id ≠ day.id := by
  intro hsame
  exact h.inactive row.activity hload.activity_mem (hload.day_id.symm.trans hsame) hact

theorem Ended.other_of_open (h : Ended db.core day) (hcoh : Coherent db.core)
    (hload : Loaded db ownerId row)
    (hopen : row.day.status = .planned ∨ row.day.status = .inProgress) :
    row.day.id ≠ day.id := by
  intro hsame
  obtain rfl := hcoh.days.eq_of_key hload.day_mem h.mem hsame
  rcases h.status with hst | hst <;> simp [hst] at hopen

theorem Ended.effect (h : Ended db.core day) (hcoh : Coherent db.core)
    (heff : Effect now db after) : Ended after.core day := by
  cases heff with
  | quiet core =>
    rw [core]
    exact h
  | @shown ownerId row activity hidden loaded changed activity_eq core =>
    rw [core]
    refine ⟨h.mem, h.status, h.written fun hday => ?_⟩
    subst activity_eq
    exact h.inactive row.activity loaded.activity_mem hday
  | @opened ownerId row activity day' key loaded from_state open_day moved free day_eq core =>
    rw [core]
    have hne := h.other_of_open hcoh loaded open_day
    have hid : day'.id = row.day.id := by
      rcases day_eq with rfl | rfl <;> rfl
    refine ⟨h.kept hcoh loaded.day_mem hid hne, h.status, h.written fun hday => ?_⟩
    rw [moved.studyDayId, ← loaded.day_id] at hday
    exact absurd hday hne
  | beat loaded active counted core =>
    rw [core]
    have hid := congrArg (fun day : StudyDayRow => day.id) counted.day_eq
    exact ⟨h.kept hcoh loaded.day_mem hid (h.other_of_active loaded active), h.status,
      h.inactive⟩
  | @ended ownerId row activity day' timer added sequence target attempts pausedAt loaded allowed
      inactive moved counted saved core =>
      rw [core]
      have hact := hcoh.active_of_open loaded counted.found
      have hid := congrArg (fun day : StudyDayRow => day.id) counted.day_eq
      refine ⟨h.kept hcoh loaded.day_mem hid (h.other_of_active loaded hact), h.status,
        h.written fun _ => ?_⟩
      rw [moved.state]
      rcases inactive with rfl | rfl | rfl <;> decide
  | dropped loaded allowed closed moved core =>
    rw [core]
    refine ⟨h.mem, h.status, h.written fun _ => ?_⟩
    rw [moved.state]
    decide
  | reviewed loaded committed moved core =>
    rw [core]
    refine ⟨h.mem, h.status, h.written fun _ => ?_⟩
    rw [moved.state]
    decide

theorem Ended.step {event : ActivityService.Event} (h : Ended db.core day)
    (hcoh : Coherent db.core) (hstep : ActivityService.Step db event after) :
    Ended after.core day := by
  cases hstep.effect with
  | planned hplan =>
    refine ⟨List.mem_append_left _ h.mem, h.status, ?_⟩
    intro activity hmem hday
    rcases List.mem_append.mp hmem with hold | hnew
    · exact h.inactive activity hold hday
    · rw [hplan.activity_state activity hnew]
      decide
  | call heff => exact h.effect hcoh heff
  | elsewhere hcore =>
    rw [hcore]
    exact h

theorem Ended.no_open_timer (h : Ended db.core day) (hcoh : Coherent db.core) :
    openTimerOfDay db day.ownerId day.id = false := by
  rw [openTimerOfDay, List.any_eq_false]
  intro timer htmr hopen
  simp only [Bool.and_eq_true, Option.isNone_iff_eq_none, beq_iff_eq,
    ActivityService.Db.timerOfDay, List.any_eq_true] at hopen
  obtain ⟨⟨hend, -⟩, activity, hact, ⟨⟨hown, hid⟩, -⟩, hday⟩ := hopen
  have hidle := h.inactive activity hact hday
  have hcnt := (hcoh.coupled activity hact).timers
  rw [if_neg hidle] at hcnt
  have hnone := List.countP_eq_zero.mp hcnt timer htmr
  simp [ActivityService.Db.isOpenFor, hown, hid, hend] at hnone

end Ended

/-! ## The minutes of the handoff -/

section Minutes

variable {db : ActivityService.Db} {day : StudyDayRow}

theorem sum_div_le (counts : List Nat) :
    (counts.map fun count => count / 60).sum ≤ counts.sum / 60 := by
  induction counts with
  | nil => simp
  | cons count rest ih =>
    rw [List.map_cons, List.sum_cons, List.sum_cons]
    omega

theorem sum_measured_le {activities : List ActivityRow}
    (hnd : (activities.map fun activity => activity.id).Nodup) (timer : ActivityTimerSession)
    (p : Bool) (hp : ∀ activity ∈ activities, timer.ownerId = activity.ownerId →
      timer.activityInstanceId = activity.id → p = true) :
    (activities.map fun activity => if timer.ownerId = activity.ownerId ∧
        timer.activityInstanceId = activity.id then timer.countedSeconds else 0).sum ≤
      if p = true then timer.countedSeconds else 0 := by
  induction activities with
  | nil => simp
  | cons activity rest ih =>
    rw [List.map_cons, List.nodup_cons] at hnd
    rw [List.map_cons, List.sum_cons]
    by_cases hmeasured : timer.ownerId = activity.ownerId ∧
        timer.activityInstanceId = activity.id
    · have hrest : (rest.map fun activity => if timer.ownerId = activity.ownerId ∧
          timer.activityInstanceId = activity.id then timer.countedSeconds else 0).sum = 0 := by
        rw [List.sum_eq_zero_iff_forall_eq_nat]
        intro value hval
        obtain ⟨other, ho, rfl⟩ := List.mem_map.mp hval
        rw [if_neg]
        rintro ⟨-, hsame⟩
        apply hnd.1
        rw [← hmeasured.2, hsame]
        exact List.mem_map_of_mem ho
      rw [if_pos hmeasured, hrest, if_pos (hp activity (by simp) hmeasured.1 hmeasured.2)]
      omega
    · rw [if_neg hmeasured, Nat.zero_add]
      exact ih hnd.2 fun other ho => hp other (List.mem_cons_of_mem _ ho)

theorem sum_activitySeconds_le {activities : List ActivityRow} {ownerId dayId : Nat}
    (hnd : (activities.map fun activity => activity.id).Nodup)
    (hmem : ∀ activity ∈ activities, activity ∈ db.activities.rows ∧
      activity.ownerId = ownerId ∧ activity.studyDayId = dayId) :
    (activities.map db.activitySeconds).sum ≤ db.daySeconds ownerId dayId := by
  have hday : ∀ timer, ∀ activity ∈ activities, timer.ownerId = activity.ownerId →
      timer.activityInstanceId = activity.id → db.timerOfDay ownerId dayId timer = true := by
    intro timer activity hact howner hid
    obtain ⟨hrow, hown, hdayId⟩ := hmem activity hact
    simp only [ActivityService.Db.timerOfDay, List.any_eq_true, Bool.and_eq_true, beq_iff_eq]
    exact ⟨activity, hrow, ⟨⟨howner.symm, hid.symm⟩, hown⟩, hdayId⟩
  unfold ActivityService.Db.activitySeconds ActivityService.Db.daySeconds
  -- one timer at a time
  induction db.timers.rows with
  | nil => simp
  | cons timer rest ih =>
    have hfst := sum_measured_le hnd timer (db.timerOfDay ownerId dayId timer) (hday timer)
    have hspl : ∀ activity : ActivityRow,
        (((timer :: rest).filter fun timer => timer.ownerId = activity.ownerId ∧
          timer.activityInstanceId = activity.id).map fun timer => timer.countedSeconds).sum =
        (if timer.ownerId = activity.ownerId ∧ timer.activityInstanceId = activity.id then
          timer.countedSeconds else 0) +
        ((rest.filter fun timer => timer.ownerId = activity.ownerId ∧
          timer.activityInstanceId = activity.id).map fun timer => timer.countedSeconds).sum := by
      intro activity
      by_cases hmeasured : timer.ownerId = activity.ownerId ∧
          timer.activityInstanceId = activity.id
      · simp [hmeasured]
      · simp [hmeasured]
    have htot : (((timer :: rest).filter (db.timerOfDay ownerId dayId)).map
          fun timer => timer.countedSeconds).sum =
        (if db.timerOfDay ownerId dayId timer = true then timer.countedSeconds else 0) +
        ((rest.filter (db.timerOfDay ownerId dayId)).map
          fun timer => timer.countedSeconds).sum := by
      by_cases hp : db.timerOfDay ownerId dayId timer = true
      · simp [hp]
      · simp [hp]
    rw [htot, List.map_congr_left fun activity _ => hspl activity, List.sum_map_add]
    omega

theorem handoffRows_spec (hcoh : Coherent db.core) (ownerId dayId : Nat) :
    (((handoffRows db ownerId dayId).map Prod.fst).map fun activity => activity.id).Nodup ∧
      ∀ activity ∈ (handoffRows db ownerId dayId).map Prod.fst,
        activity ∈ db.activities.rows ∧ activity.ownerId = ownerId ∧
          activity.studyDayId = dayId := by
  have hperm := List.perm_insertionSort (fun row other : ActivityRow × _ => row.1.id ≤ other.1.id)
    ((((activitiesOfDay db ownerId dayId).filter fun activity =>
      activity.state ≠ .superseded).filterMap fun activity =>
        (definitionOf? db activity).map fun defn => (activity, defn)))
  -- joining a definition drops activities and reorders none
  have hsub : ∀ activities : List ActivityRow, ((activities.filterMap fun activity =>
      (definitionOf? db activity).map fun defn => (activity, defn)).map
        Prod.fst).Sublist activities := by
    intro activities
    induction activities with
    | nil => simp
    | cons activity rest ih =>
      cases hdefn : definitionOf? db activity with
      | none =>
        simp only [List.filterMap_cons, hdefn, Option.map_none]
        exact ih.cons activity
      | some defn =>
        simp only [List.filterMap_cons, hdefn, Option.map_some, List.map_cons]
        exact ih.cons_cons activity
  have hrows := (hsub _).trans
    ((List.filter_sublist (p := fun activity : ActivityRow => activity.state ≠ .superseded)).trans
      (List.filter_sublist (l := db.activities.rows)
        (p := fun activity => activity.ownerId = ownerId ∧ activity.studyDayId = dayId)))
  constructor
  · have hnd := hcoh.activities.nodup.sublist (hrows.map _)
    exact ((hperm.map Prod.fst).map _).nodup_iff.mpr hnd
  · intro activity hmem
    have hf := (hsub _).subset ((hperm.map Prod.fst).mem_iff.mp hmem)
    have hday := List.mem_of_mem_filter hf
    simp only [activitiesOfDay, List.mem_filter, decide_eq_true_eq] at hday
    exact hday

theorem handoff_minutes (env : CloseEnv) (hcoh : Coherent db.core)
    (close : DailyClose) (command : DailyCloseCommand) (id : Nat)
    (hmins : day.focusedMinutes = db.daySeconds day.ownerId day.id / 60) :
    (handoffOf env db day close command id).focusedMinutes = day.focusedMinutes := by
  obtain ⟨hnd, hmem⟩ := handoffRows_spec hcoh day.ownerId day.id
  have hsum := sum_activitySeconds_le hnd hmem
  have hdraft : ((((handoffRows db day.ownerId day.id).map (handoffInput env db)).map
      handoffBlock).map HandoffBlock.focusedMinutes).sum ≤ day.focusedMinutes := by
    calc ((((handoffRows db day.ownerId day.id).map (handoffInput env db)).map
          handoffBlock).map HandoffBlock.focusedMinutes).sum
        = ((((handoffRows db day.ownerId day.id).map Prod.fst).map db.activitySeconds).map
            fun count => count / 60).sum := by
          simp only [List.map_map]
          rfl
      _ ≤ (((handoffRows db day.ownerId day.id).map Prod.fst).map db.activitySeconds).sum / 60 :=
          sum_div_le _
      _ ≤ db.daySeconds day.ownerId day.id / 60 := Nat.div_le_div_right hsum
      _ = day.focusedMinutes := hmins.symm
  exact max_eq_right hdraft

end Minutes

/-! ## What a close does -/

section Closing

variable {env : CloseEnv} {db after : TodayDb} {day : StudyDayRow} {command : DailyCloseCommand}
  {response : DailyCloseResponse} {ownerId : Nat} {localDate : Date}

structure Closes (env : CloseEnv) (db : TodayDb) (day : StudyDayRow)
    (command : DailyCloseCommand) (closed : StudyDayRow) (close : DailyClose)
    (handoff : DailyHandoff) (after : TodayDb) : Prop where
  closed_eq : ∃ startedAt closedAt, closed = closedDay { day with
    status := .inProgress, startedAt := startedAt } command closedAt
  close_eq : ∃ closedAt, close = closeOf closed command closedAt db.closes.next
  handoff_eq : handoff = handoffOf env after.learning closed close command db.handoffs.next
  was_open : day.status = .planned ∨ day.status = .inProgress
  no_timer : openTimerOfDay db.learning day.ownerId day.id = false
  fresh_close : ∀ other ∈ db.closes.rows, other.ownerId = day.ownerId →
    other.studyDayId ≠ day.id
  fresh_handoff : ∀ other ∈ db.handoffs.rows, other.ownerId = day.ownerId →
    other.studyDayId ≠ day.id
  after_eq : after = {
    learning := { db.learning with
      days := db.learning.days.replace (fun day => day.id) closed },
    closes := (db.closes.insert fun _ => close).2,
    handoffs := (db.handoffs.insert fun _ => handoff).2 }

theorem flushDay_ok {old new : StudyDayRow} (h : flushDay db old new = .ok after) :
    after = { db with learning := { db.learning with
      days := db.learning.writtenDays old new } } := by
  simp only [flushDay, bind_ok_iff, mapError_ok_iff] at h
  obtain ⟨learning, hlearning, ha⟩ := h
  cases ha
  rw [ActivityService.flushDay_ok hlearning]

theorem insertClose_ok {close : DailyClose} (h : insertClose db close = .ok after) :
    (∀ other ∈ db.closes.rows, other.ownerId = close.ownerId →
      other.studyDayId ≠ close.studyDayId) ∧
      after = { db with closes := (db.closes.insert fun _ => close).2 } := by
  simp only [insertClose, bind_ok_iff] at h
  obtain ⟨_, hgrd, ha⟩ := h
  cases ha
  refine ⟨?_, rfl⟩
  intro other hmem hown hday
  have hfree := raiseFirst_eq_ok.mp hgrd _ (List.mem_cons_self ..)
  have ho := List.any_eq_false.mp hfree other hmem
  simp [hown, hday] at ho

theorem insertHandoff_ok {handoff : DailyHandoff} (h : insertHandoff db handoff = .ok after) :
    (∀ other ∈ db.handoffs.rows, other.ownerId = handoff.ownerId →
      other.studyDayId ≠ handoff.studyDayId) ∧
      after = { db with handoffs := (db.handoffs.insert fun _ => handoff).2 } := by
  simp only [insertHandoff, bind_ok_iff] at h
  obtain ⟨_, hgrd, ha⟩ := h
  cases ha
  refine ⟨?_, rfl⟩
  intro other hmem hown hday
  have hfree := raiseFirst_eq_ok.mp hgrd _ (List.mem_cons_self ..)
  have ho := List.any_eq_false.mp hfree other hmem
  simp [hown, hday] at ho

theorem validateClose_ok {learning : ActivityService.Db}
    (h : validateClose env learning day command = .ok ()) :
    (day.status = .planned ∨ day.status = .inProgress) ∧
      openTimerOfDay learning day.ownerId day.id = false := by
  simp only [validateClose, bind_ok_iff] at h
  obtain ⟨_, hst, _, -, _, -, hgrd⟩ := h
  constructor
  · have hopen := raiseFirst_eq_ok.mp hst _ (List.mem_cons_self ..)
    cases hcase : day.status <;> simp [hcase] at hopen ⊢
  · exact raiseFirst_eq_ok.mp hgrd _ (List.mem_cons_self ..)

theorem startedForClose_eq (hopen : day.status = .planned ∨ day.status = .inProgress) :
    ∃ startedAt, startedForClose env day =
      { day with status := .inProgress, startedAt := startedAt } := by
  unfold startedForClose
  split
  · exact ⟨_, rfl⟩
  · rename_i hplan
    rcases hopen with hst | hst
    · exact absurd hst hplan
    · exact ⟨day.startedAt, by rw [← hst]⟩

theorem writtenDays_twice {learning : ActivityService.Db} {started closed : StudyDayRow}
    (hclos : closed.id = started.id) (hne : closed ≠ started) :
    ({ learning with days := learning.writtenDays day started } :
        ActivityService.Db).writtenDays started closed =
      learning.days.replace (fun day => day.id) closed := by
  rw [ActivityService.Db.writtenDays, if_neg hne, ActivityService.Db.writtenDays]
  split
  · rfl
  · exact Serial.replace_replace _ hclos

theorem firstClose_ok (h : firstClose env db day command = .ok (response, after)) :
    ∃ closed close handoff, Closes env db day command closed close handoff after ∧
      response = closeResponse close closed.status command false := by
  simp only [firstClose, bind_ok_iff] at h
  obtain ⟨_, hval, db₁, hstart, h⟩ := h
  obtain ⟨hopen, htmr⟩ := validateClose_ok hval
  obtain ⟨startedAt, hstarted⟩ : ∃ startedAt, startedForClose env day =
      { day with status := .inProgress, startedAt := startedAt } := startedForClose_eq hopen
  rw [hstarted] at hstart h
  split at h
  swap
  · cases h
  simp only [bind_ok_iff] at h
  obtain ⟨db₂, hflush, db₃, hclose, db₄, hhandoff, hres⟩ := h
  cases hres
  obtain rfl := flushDay_ok hstart
  obtain rfl := flushDay_ok hflush
  obtain ⟨hnewClose, rfl⟩ := insertClose_ok hclose
  obtain ⟨hnewHandoff, rfl⟩ := insertHandoff_ok hhandoff
  refine ⟨_, _, _, ⟨⟨_, _, rfl⟩, ⟨_, rfl⟩, rfl, hopen, htmr, hnewClose, hnewHandoff, ?_⟩, rfl⟩
  simp only
  rw [writtenDays_twice]
  · rfl
  · intro hsame
    have hst := congrArg (fun day : StudyDayRow => day.status) hsame
    simp only [closedDay] at hst
    split at hst <;> cases hst

theorem closeDay_ok (h : closeDay env db ownerId localDate command = .ok (response, after)) :
    ∃ day ∈ db.learning.days.rows, day.ownerId = ownerId ∧ day.localDate = localDate ∧
      day.dayType ≠ .sunday ∧
      ((response.replayed = true ∧ after = db) ∨
        firstClose env db day command = .ok (response, after)) := by
  unfold closeDay at h
  dsimp only at h
  split at h
  swap
  · cases h
  rename_i day hday
  have hkey := List.find?_some hday
  simp only [decide_eq_true_eq] at hkey
  simp only [bind_ok_iff] at h
  obtain ⟨_, hsunday, h⟩ := h
  have htype := raiseFirst_eq_ok.mp hsunday _ (List.mem_cons_self ..)
  refine ⟨day, List.mem_of_find?_eq_some hday, hkey.1, hkey.2, by simpa using htype, ?_⟩
  split at h
  · simp only [bind_ok_iff] at h
    obtain ⟨_, -, hres⟩ := h
    cases hres
    exact Or.inl ⟨rfl, rfl⟩
  · exact Or.inr h

end Closing

/-! ## Runs -/

section Runs

/-- One call of `close_day`. -/
structure CloseCall where
  env : CloseEnv
  ownerId : Nat
  localDate : Date
  command : DailyCloseCommand

inductive Event
  | learning (event : ActivityService.Event)
  | close (call : CloseCall) (outcome : Except TodayError DailyCloseResponse)

/-- `uq_study_days_owner_local_date` for a day that is planned. -/
def UniqueDate (db : TodayDb) : ActivityService.Event → Prop
  | .planned day _ => ∀ other ∈ db.learning.days.rows,
      other.ownerId = day.ownerId → other.localDate ≠ day.localDate
  | _ => True

inductive Step : TodayDb → Event → TodayDb → Prop
  | learning {db : TodayDb} {event : ActivityService.Event} {after : ActivityService.Db}
      (h : ActivityService.Step db.learning event after) (unique : UniqueDate db event) :
      Step db (.learning event) { db with learning := after }
  | closed (db : TodayDb) (call : CloseCall) :
      Step db
        (.close call (closeDayTx call.env db call.ownerId call.localDate call.command).1)
        (closeDayTx call.env db call.ownerId call.localDate call.command).2
  | unavailable (db : TodayDb) (call : CloseCall) :
      Step db (.close call (.error todayUnavailable)) db

def Dated (db : ActivityService.Db) : Prop :=
  ∀ day ∈ db.days.rows, ∀ other ∈ db.days.rows, day.ownerId = other.ownerId →
    day.localDate = other.localDate → day.id = other.id

structure Inv (db : TodayDb) : Prop where
  coherent : Coherent db.learning.core
  focused : Focused db.learning.core
  dated : Dated db.learning

variable {db after : TodayDb} {learning later : ActivityService.Db} {env : CloseEnv}
  {day closed old new : StudyDayRow} {close : DailyClose} {handoff : DailyHandoff}
  {command : DailyCloseCommand} {response : DailyCloseResponse} {ownerId : Nat}
  {localDate : Date} {now : Instant}

/-- Days of one table that stand under the owner and the date of days of
another. -/
def Redates (before after : Serial StudyDayRow) : Prop :=
  ∀ day ∈ after.rows, ∃ old ∈ before.rows,
    day.id = old.id ∧ day.ownerId = old.ownerId ∧ day.localDate = old.localDate

theorem redates_replace (hold : old ∈ learning.days.rows) (hid : new.id = old.id)
    (hown : new.ownerId = old.ownerId) (hdate : new.localDate = old.localDate) :
    Redates learning.days (learning.days.replace (fun day => day.id) new) := by
  intro day hmem
  rcases Serial.mem_replace hmem with rfl | ⟨hrow, -⟩
  · exact ⟨old, hold, hid, hown, hdate⟩
  · exact ⟨day, hrow, rfl, rfl, rfl⟩

theorem redates_written (hold : old ∈ learning.days.rows) (hid : new.id = old.id)
    (hown : new.ownerId = old.ownerId) (hdate : new.localDate = old.localDate) :
    Redates learning.days (learning.writtenDays old new) := by
  unfold ActivityService.Db.writtenDays
  split
  · exact fun day hmem => ⟨day, hmem, rfl, rfl, rfl⟩
  · exact redates_replace hold hid hown hdate

theorem redates_effect (heff : Effect now learning later) :
    Redates learning.core.days later.core.days := by
  have hsame : Redates learning.core.days learning.core.days :=
    fun day hmem => ⟨day, hmem, rfl, rfl, rfl⟩
  cases heff with
  | quiet core => rw [core]; exact hsame
  | shown loaded changed activity_eq core => rw [core]; exact hsame
  | opened key loaded from_state open_day moved free day_eq core =>
    rw [core]
    rcases day_eq with rfl | rfl <;> exact redates_written loaded.day_mem rfl rfl rfl
  | beat loaded active counted core =>
    rw [core, counted.day_eq]
    exact redates_written loaded.day_mem rfl rfl rfl
  | ended pausedAt loaded allowed inactive moved counted saved core =>
    rw [core, counted.day_eq]
    exact redates_written loaded.day_mem rfl rfl rfl
  | dropped loaded allowed closed moved core => rw [core]; exact hsame
  | reviewed loaded committed moved core => rw [core]; exact hsame

theorem Dated.of_redates (h : Dated learning) (hredates : Redates learning.days later.days) :
    Dated later := by
  intro day hday other ho hown hdate
  obtain ⟨oldDay, holdDay, hdayId, hdayOwn, hdayDate⟩ := hredates day hday
  obtain ⟨oldOther, holdOther, hotherId, hotherOwn, hotherDate⟩ := hredates other ho
  rw [hdayId, hotherId]
  apply h oldDay holdDay oldOther holdOther
  · rw [← hdayOwn, ← hotherOwn, hown]
  · rw [← hdayDate, ← hotherDate, hdate]

theorem Dated.step {event : ActivityService.Event} (h : Dated db.learning)
    (hstep : ActivityService.Step db.learning event later) (huniq : UniqueDate db event) :
    Dated later := by
  cases hstep.effect with
  | @planned day activities hplan =>
    intro one hone two htwo hown hdate
    rcases List.mem_append.mp hone with holdOne | hnewOne <;>
      rcases List.mem_append.mp htwo with holdTwo | hnewTwo
    · exact h one holdOne two holdTwo hown hdate
    · obtain rfl := List.mem_singleton.mp hnewTwo
      exact absurd hdate (huniq one holdOne hown)
    · obtain rfl := List.mem_singleton.mp hnewOne
      exact absurd hdate.symm (huniq two holdTwo hown.symm)
    · rw [List.mem_singleton.mp hnewOne, List.mem_singleton.mp hnewTwo]
  | call heff => exact h.of_redates (redates_effect heff)
  | elsewhere hcore =>
    have hdays : later.days = db.learning.days := congrArg Core.days hcore
    rw [Dated, hdays]
    exact h

theorem Closes.same_day (h : Closes env db day command closed close handoff after) :
    closed.id = day.id ∧ closed.ownerId = day.ownerId ∧ closed.localDate = day.localDate ∧
      closed.dayType = day.dayType ∧ closed.focusedMinutes = day.focusedMinutes := by
  obtain ⟨startedAt, closedAt, rfl⟩ := h.closed_eq
  exact ⟨rfl, rfl, rfl, rfl, rfl⟩

theorem Closes.inv (h : Closes env db day command closed close handoff after) (hinv : Inv db)
    (hday : day ∈ db.learning.days.rows) : Inv after := by
  obtain ⟨hid, hown, hdate, htype, hmins⟩ := h.same_day
  rw [h.after_eq]
  constructor
  · exact ⟨hinv.coherent.days.replace closed, hinv.coherent.activities, hinv.coherent.timers,
      hinv.coherent.timer_belongs, hinv.coherent.attempt_belongs,
      fun activity hmem => (hinv.coherent.coupled activity hmem).congr rfl rfl⟩
  · constructor
    · intro activity hmem
      obtain ⟨found, hf, hfoundId, hfoundOwn⟩ := hinv.focused.scheduled activity hmem
      by_cases hsame : found.id = closed.id
      · obtain rfl := hinv.coherent.days.eq_of_key hf hday (hsame.trans hid)
        exact ⟨closed, Serial.mem_replace_self hday hid, hid.trans hfoundId,
          hown.trans hfoundOwn⟩
      · exact ⟨found, Serial.mem_replace_of_ne hf hsame, hfoundId, hfoundOwn⟩
    · intro other hmem
      rcases Serial.mem_replace hmem with rfl | ⟨hrow, -⟩
      · have haccounted := hinv.focused.accounted day hday
        have hsecs : Core.daySeconds ⟨db.learning.days.replace (fun day => day.id) other,
            db.learning.activities, db.learning.timers, db.learning.attempts⟩ other =
              db.learning.core.daySeconds day := by
          unfold Core.daySeconds
          rw [hid, hown]
          rfl
        change ActivityService.Accounted ⟨db.learning.days.replace (fun day => day.id) other,
          db.learning.activities, db.learning.timers, db.learning.attempts⟩ other
        rw [ActivityService.Accounted, hsecs, htype, hmins]
        exact haccounted
      · exact hinv.focused.accounted other hrow
  · exact hinv.dated.of_redates (redates_replace hday hid hown hdate)

theorem Inv.step {event : Event} (h : Inv db) (hstep : Step db event after) : Inv after := by
  cases hstep with
  | learning hlearning huniq =>
    exact ⟨h.coherent.step hlearning, h.focused.step h.coherent hlearning,
      h.dated.step hlearning huniq⟩
  | closed call =>
    unfold closeDayTx
    split
    · rename_i response closed hclose
      obtain ⟨day, hday, -, -, -, ⟨-, rfl⟩ | hfst⟩ := closeDay_ok hclose
      · exact h
      · obtain ⟨closed, close, handoff, hcloses, -⟩ := firstClose_ok hfst
        exact hcloses.inv h hday
    · exact h
  | unavailable call => exact h

theorem inv_of_initial (h : ActivityService.Initial db.learning) : Inv db := by
  refine ⟨ActivityService.coherent_of_initial h, ActivityService.focused_of_initial h, ?_⟩
  intro day hday
  rw [h.days] at hday
  cases hday

/-! ## The close stays -/

structure ClosedAs (db : TodayDb) (day : StudyDayRow) (close : DailyClose)
    (handoff : DailyHandoff) : Prop where
  ended : Ended db.learning.core day
  close_mem : close ∈ db.closes.rows
  close_only : ∀ other ∈ db.closes.rows, other.ownerId = day.ownerId →
    other.studyDayId = day.id → other = close
  handoff_mem : handoff ∈ db.handoffs.rows
  handoff_only : ∀ other ∈ db.handoffs.rows, other.ownerId = day.ownerId →
    other.studyDayId = day.id → other = handoff

theorem Closes.closedAs (h : Closes env db day command closed close handoff after)
    (hinv : Inv db) (hday : day ∈ db.learning.days.rows) :
    ClosedAs after closed close handoff := by
  obtain ⟨hid, hown, -, -, -⟩ := h.same_day
  have ha := h.after_eq
  have hst : closed.status = .closed ∨ closed.status = .incomplete := by
    obtain ⟨startedAt, closedAt, rfl⟩ := h.closed_eq
    simp only [closedDay]
    split
    · exact Or.inl rfl
    · exact Or.inr rfl
  subst ha
  constructor
  · refine ⟨Serial.mem_replace_self hday hid, hst, ?_⟩
    -- an active activity would have an open timer
    intro activity hmem hactDay hact
    have hmem' : activity ∈ db.learning.activities.rows := hmem
    obtain ⟨found, hf, hfoundId, hfoundOwn⟩ := hinv.focused.scheduled activity hmem'
    obtain rfl := hinv.coherent.days.eq_of_key hf hday
      (hfoundId.trans (hactDay.trans hid))
    have hcnt := (hinv.coherent.coupled activity hmem').timers
    rw [if_pos hact] at hcnt
    obtain ⟨timer, htmr, hopen⟩ := List.countP_pos_iff.mp (hcnt ▸ Nat.one_pos)
    simp only [ActivityService.Db.isOpenFor, Bool.and_eq_true, beq_iff_eq] at hopen
    have hnone := List.any_eq_false.mp h.no_timer timer htmr
    apply hnone
    simp only [Bool.and_eq_true, beq_iff_eq, ActivityService.Db.timerOfDay, List.any_eq_true]
    exact ⟨⟨hopen.2, hopen.1.1.trans hfoundOwn.symm⟩, activity, hmem',
      ⟨⟨hopen.1.1.symm, hopen.1.2.symm⟩, hfoundOwn.symm⟩, hfoundId.symm⟩
  · exact List.mem_append_right _ (List.mem_singleton.mpr rfl)
  · intro other hmem hotherOwn hotherDay
    rcases List.mem_append.mp hmem with hold | hnew
    · exact absurd (hotherDay.trans hid) (h.fresh_close other hold (hotherOwn.trans hown))
    · exact List.mem_singleton.mp hnew
  · exact List.mem_append_right _ (List.mem_singleton.mpr rfl)
  · intro other hmem hotherOwn hotherDay
    rcases List.mem_append.mp hmem with hold | hnew
    · exact absurd (hotherDay.trans hid) (h.fresh_handoff other hold (hotherOwn.trans hown))
    · exact List.mem_singleton.mp hnew

theorem ClosedAs.closes {other otherClosed : StudyDayRow} {otherClose : DailyClose}
    {otherHandoff : DailyHandoff} (h : ClosedAs db day close handoff)
    (hcloses : Closes env db other command otherClosed otherClose otherHandoff after)
    (hinv : Inv db) (ho : other ∈ db.learning.days.rows) :
    ClosedAs after day close handoff := by
  obtain ⟨hid, hown, -, -, -⟩ := hcloses.same_day
  have hne : day.id ≠ other.id := by
    intro hsame
    obtain rfl := hinv.coherent.days.eq_of_key h.ended.mem ho hsame
    rcases h.ended.status with hst | hst <;> rcases hcloses.was_open with hopen | hopen <;>
      rw [hst] at hopen <;> cases hopen
  obtain ⟨closedAt, hcloseEq⟩ := hcloses.close_eq
  have hcloseDay : otherClose.studyDayId = other.id := by
    rw [hcloseEq]
    exact hid
  have hhandoffDay : otherHandoff.studyDayId = other.id := by
    rw [hcloses.handoff_eq]
    exact hid
  rw [hcloses.after_eq]
  constructor
  · exact ⟨Serial.mem_replace_of_ne h.ended.mem (hid ▸ hne), h.ended.status, h.ended.inactive⟩
  · exact List.mem_append_left _ h.close_mem
  · intro found hmem hfoundOwn hfoundDay
    rcases List.mem_append.mp hmem with hold | hnew
    · exact h.close_only found hold hfoundOwn hfoundDay
    · obtain rfl := List.mem_singleton.mp hnew
      exact absurd (hfoundDay.symm.trans hcloseDay) hne
  · exact List.mem_append_left _ h.handoff_mem
  · intro found hmem hfoundOwn hfoundDay
    rcases List.mem_append.mp hmem with hold | hnew
    · exact h.handoff_only found hold hfoundOwn hfoundDay
    · obtain rfl := List.mem_singleton.mp hnew
      exact absurd (hfoundDay.symm.trans hhandoffDay) hne

theorem ClosedAs.step {event : Event} (h : ClosedAs db day close handoff) (hinv : Inv db)
    (hstep : Step db event after) : ClosedAs after day close handoff := by
  cases hstep with
  | learning hlearning huniq =>
    exact ⟨h.ended.step hinv.coherent hlearning, h.close_mem, h.close_only, h.handoff_mem,
      h.handoff_only⟩
  | closed call =>
    unfold closeDayTx
    split
    · rename_i response closed hclose
      obtain ⟨other, ho, -, -, -, ⟨-, rfl⟩ | hfst⟩ := closeDay_ok hclose
      · exact h
      · obtain ⟨otherClosed, otherClose, otherHandoff, hcloses, -⟩ := firstClose_ok hfst
        exact h.closes hcloses hinv ho
    · exact h
  | unavailable call => exact h

/-! ## Later closes -/

/-- The commands select other corrections, as many of them, and agree in
everything else. -/
structure SwapsCorrections (first later : DailyCloseCommand) : Prop where
  correctionIds : later.correctionIds ≠ first.correctionIds
  correctionCount : later.correctionIds.length = first.correctionIds.length
  evidenceManifest : later.evidenceManifest = first.evidenceManifest
  strongestOutput : later.strongestOutput = first.strongestOutput
  repeatedMistake : later.repeatedMistake = first.repeatedMistake
  unfinishedClassification : later.unfinishedClassification = first.unfinishedClassification
  unfinishedRequirement : later.unfinishedRequirement = first.unfinishedRequirement

theorem sameClose_iff {first later : DailyCloseCommand} {closedAt : Instant} {id : Nat} :
    sameClose (closeOf day first closedAt id) later = true ↔
      later = first ∨ SwapsCorrections first later := by
  simp only [sameClose, closeOf, Bool.true_and, Bool.and_eq_true, beq_iff_eq]
  constructor
  · rintro ⟨⟨⟨⟨⟨hmani, hstrongest⟩, hmistake⟩, hclassification⟩, hrequirement⟩, hcnt⟩
    by_cases hsame : later.correctionIds = first.correctionIds
    · left
      apply DailyCloseCommand.ext
      · rw [later.evidence_confirmed, first.evidence_confirmed]
      · exact hmani.symm
      · exact hstrongest.symm
      · exact hmistake.symm
      · exact hclassification.symm
      · exact hrequirement.symm
      · exact hsame
    · right
      exact ⟨hsame, hcnt.symm, hmani.symm, hstrongest.symm, hmistake.symm,
        hclassification.symm, hrequirement.symm⟩
  · rintro (rfl | hswaps)
    · exact ⟨⟨⟨⟨⟨rfl, rfl⟩, rfl⟩, rfl⟩, rfl⟩, rfl⟩
    · exact ⟨⟨⟨⟨⟨hswaps.evidenceManifest.symm, hswaps.strongestOutput.symm⟩,
        hswaps.repeatedMistake.symm⟩, hswaps.unfinishedClassification.symm⟩,
        hswaps.unfinishedRequirement.symm⟩, hswaps.correctionCount.symm⟩

theorem closeDay_closed (h : ClosedAs db day close handoff) (hinv : Inv db)
    (hown : close.ownerId = day.ownerId) (hid : close.studyDayId = day.id)
    (hsunday : day.dayType ≠ .sunday) :
    closeDayTx env db day.ownerId day.localDate command =
      (if sameClose close command = true then .ok (closeResponse close day.status command true)
        else .error (.conflict "study day was already closed differently"), db) := by
  have hday : db.learning.days.rows.find? (fun other =>
      decide (other.ownerId = day.ownerId ∧ other.localDate = day.localDate)) = some day := by
    cases hfind : db.learning.days.rows.find? (fun other =>
        decide (other.ownerId = day.ownerId ∧ other.localDate = day.localDate)) with
    | none =>
      have hnone := List.find?_eq_none.mp hfind day h.ended.mem
      simp at hnone
    | some found =>
      have hmem := List.mem_of_find?_eq_some hfind
      have hkey := List.find?_some hfind
      simp only [decide_eq_true_eq] at hkey
      have hsame := hinv.dated found hmem day h.ended.mem hkey.1 hkey.2
      rw [hinv.coherent.days.eq_of_key hmem h.ended.mem hsame]
  have hclose : db.closes.rows.find? (fun other =>
      decide (other.ownerId = day.ownerId ∧ other.studyDayId = day.id)) = some close := by
    cases hfind : db.closes.rows.find? (fun other =>
        decide (other.ownerId = day.ownerId ∧ other.studyDayId = day.id)) with
    | none =>
      have hnone := List.find?_eq_none.mp hfind close h.close_mem
      simp [hown, hid] at hnone
    | some found =>
      have hkey := List.find?_some hfind
      simp only [decide_eq_true_eq] at hkey
      rw [h.close_only found (List.mem_of_find?_eq_some hfind) hkey.1 hkey.2]
  have hgrd : raiseFirst [(day.dayType == .sunday,
      TodayError.notReady "study day is unavailable")] = .ok () :=
    raiseFirst_eq_ok.mpr (by simpa using hsunday)
  unfold closeDayTx closeDay
  simp only [hday, hclose, hgrd, bind, Except.bind]
  by_cases hsame : sameClose close command = true
  · simp [hsame, pure, Except.pure, raiseFirst]
  · simp [hsame, raiseFirst]

/-- Once a day was closed, its row, its close and its handoff stay as they are,
none of its work is active or timed again, and its handoff reports its minutes.
A later close is a replay of the first one exactly when it repeats the command,
and a conflict without effect otherwise, unless it only swaps corrections. -/
theorem close_day_final {start before closed later : TodayDb}
    {trace rest : List (Transition TodayDb Event)}
    (hinitial : ActivityService.Initial start.learning) (hrun : Run Step start trace before)
    (hclose : closeDay env before ownerId localDate command = .ok (response, closed))
    (hfirst : response.replayed = false) (hrest : Run Step closed rest later) :
    ∃ day close handoff,
      (day.ownerId = ownerId ∧ day.localDate = localDate ∧
        response = closeResponse close day.status command false ∧
        handoff.focusedMinutes = day.focusedMinutes) ∧
      ClosedAs closed day close handoff ∧ ClosedAs later day close handoff ∧
      openTimerOfDay later.learning ownerId day.id = false ∧
      ∀ env' command',
        closeDayTx env' later ownerId localDate command' =
            (if command' = command then .ok { response with replayed := true }
              else .error (.conflict "study day was already closed differently"), later) ↔
          ¬ SwapsCorrections command command' := by
  have hinv : Inv before := hrun.state_invariant (I := Inv) (inv_of_initial hinitial)
    fun _ _ _ h hstep => h.step hstep
  obtain ⟨day, hday, howner, hdate, hsunday, ⟨hreplayed, -⟩ | hdone⟩ := closeDay_ok hclose
  · rw [hreplayed] at hfirst
    cases hfirst
  obtain ⟨row, close, handoff, hcloses, hresponse⟩ := firstClose_ok hdone
  obtain ⟨hid, hrowOwner, hrowDate, hrowType, hrowMinutes⟩ := hcloses.same_day
  have hclosed := hcloses.closedAs hinv hday
  have hinvClosed := hcloses.inv hinv hday
  obtain ⟨hinvLater, hlater⟩ :=
    hrest.state_invariant (I := fun db => Inv db ∧ ClosedAs db row close handoff)
      ⟨hinvClosed, hclosed⟩ fun _ _ _ h hstep => ⟨h.1.step hstep, h.2.step h.1 hstep⟩
  obtain ⟨closedAt, hcloseEq⟩ := hcloses.close_eq
  have hminutes : handoff.focusedMinutes = row.focusedMinutes := by
    rw [hcloses.handoff_eq]
    apply handoff_minutes _ hinvClosed.coherent
    rw [ActivityService.daySeconds_eq]
    exact (hinvClosed.focused.accounted row hclosed.ended.mem).2
  rw [← howner, ← hdate, ← hrowOwner, ← hrowDate]
  refine ⟨row, close, handoff, ⟨rfl, rfl, hresponse, hminutes⟩, hclosed, hlater,
    hlater.ended.no_open_timer hinvLater.coherent, ?_⟩
  intro env' command'
  rw [closeDay_closed hlater hinvLater (by rw [hcloseEq]; rfl) (by rw [hcloseEq]; rfl)
    (by rw [hrowType]; exact hsunday)]
  have hsame : sameClose close command' = true ↔
      command' = command ∨ SwapsCorrections command command' := by
    rw [hcloseEq]
    exact sameClose_iff
  by_cases hcommand : command' = command
  · subst hcommand
    have hswaps : ¬ SwapsCorrections command' command' := fun h => h.correctionIds rfl
    rw [if_pos (hsame.mpr (Or.inl rfl)), if_pos rfl, hresponse]
    exact ⟨fun _ => hswaps, fun _ => rfl⟩
  · rw [if_neg hcommand]
    by_cases hswaps : SwapsCorrections command command'
    · rw [if_pos (hsame.mpr (Or.inr hswaps))]
      constructor
      · intro heq
        cases congrArg Prod.fst heq
      · exact fun hnot => absurd hswaps hnot
    · rw [if_neg fun h => (hsame.mp h).elim hcommand hswaps]
      exact ⟨fun _ => hswaps, fun _ => rfl⟩

/-! ## A day that is closed twice -/

theorem run_learning_calls (db : TodayDb) (calls : List ActivityService.Call) :
    ∃ trace, Run Step db trace
      { db with learning := ActivityService.afterCalls db.learning calls } := by
  induction calls generalizing db with
  | nil => exact ⟨[], Run.refl⟩
  | cons call rest ih =>
    have hfst := Step.learning (ActivityService.Step.executed db.learning call) trivial
    obtain ⟨trace, hrest⟩ := ih { db with
      learning := (ActivityService.execute call.env db.learning call.ownerId call.command
        call.key).2 }
    exact ⟨_, (Run.single hfst).append hrest⟩

theorem closeDayTx_ok (h : (closeDayTx env db ownerId localDate command).1 = .ok response) :
    closeDay env db ownerId localDate command =
      .ok (response, (closeDayTx env db ownerId localDate command).2) := by
  unfold closeDayTx at h ⊢
  split
  · rename_i found after hclose
    rw [hclose] at h
    cases h
    exact hclose
  · rename_i error hclose
    rw [hclose] at h
    cases h

def sampleClose (correctionId : Nat) (hpos : 0 < correctionId) : DailyCloseCommand where
  evidenceConfirmed := true
  evidenceManifest := {
    activityIds := [1], attemptIds := [], artifactIds := [], selfReviewIds := [],
    unique_ids := by decide }
  strongestOutput := "One query without a hint."
  repeatedMistake := "Grouped before filtering."
  unfinishedClassification := .required
  unfinishedRequirement := some "Finish the second query."
  correctionIds := [correctionId]
  compact_nonblank := by decide +kernel
  evidence_confirmed := rfl
  corrections_unique := by simp [distinctIds, hpos]
  coherent_requirement := by decide +kernel
  requirement_size := by decide +kernel

/-- Two corrections are due on the next study date. -/
def sampleCloseEnv : CloseEnv where
  now := seconds 120
  scheme := legacyScheme
  corrections := [⟨7, 1, 1, .pending, 739853⟩, ⟨8, 1, 2, .pending, 739853⟩]
  coachMessages := []
  studyNotes := []

def sampleToday : TodayDb where
  learning := ActivityService.sampleStore
  closes := .empty
  handoffs := .empty

def sampleWork : List ActivityService.Call :=
  [ActivityService.sampleCall 0 (.start 1 1) "start-1",
    ActivityService.sampleCall 30 (.heartbeat 1 2 1) "beat-1",
    ActivityService.sampleCall 60 (.pause 1 2 2) "pause-1"]

def sampleWorked : TodayDb :=
  { sampleToday with
    learning := ActivityService.afterCalls ActivityService.samplePlanned sampleWork }

def sampleClosed : TodayDb :=
  (closeDayTx sampleCloseEnv sampleWorked 1 739852 (sampleClose 7 id_seven_pos)).2

theorem run_sampleWorked : ∃ trace, Run Step sampleToday trace sampleWorked := by
  have hplan : Step sampleToday (.learning (.planned ActivityService.sampleDay
      ActivityService.sampleActivities)) { sampleToday with
        learning := ActivityService.samplePlanned } :=
    Step.learning (.planned ActivityService.planned_sample) (by
      intro other hmem
      cases hmem)
  obtain ⟨trace, hcalls⟩ :=
    run_learning_calls { sampleToday with learning := ActivityService.samplePlanned } sampleWork
  exact ⟨_, (Run.single hplan).append hcalls⟩

def sampleResponse : DailyCloseResponse :=
  ⟨1, 1, .incomplete, seconds 120, .replaceAdaptive, false⟩

theorem closeDay_sample :
    closeDay sampleCloseEnv sampleWorked 1 739852 (sampleClose 7 (by decide)) =
      .ok (sampleResponse, sampleClosed) :=
  closeDayTx_ok (by decide)

/-- The command that closed the day is a replay on it. -/
theorem close_day_final_sample :
    ∃ day close handoff,
      (day.ownerId = 1 ∧ day.localDate = 739852 ∧
        sampleResponse = closeResponse close day.status (sampleClose 7 (by decide)) false ∧
        handoff.focusedMinutes = day.focusedMinutes) ∧
      ClosedAs sampleClosed day close handoff ∧ ClosedAs sampleClosed day close handoff ∧
      openTimerOfDay sampleClosed.learning 1 day.id = false ∧
      ∀ env' command',
        closeDayTx env' sampleClosed 1 739852 command' =
            (if command' = sampleClose 7 (by decide) then
                .ok { sampleResponse with replayed := true }
              else .error (.conflict "study day was already closed differently"),
              sampleClosed) ↔
          ¬ SwapsCorrections (sampleClose 7 (by decide)) command' := by
  obtain ⟨trace, hrun⟩ := run_sampleWorked
  exact close_day_final ⟨rfl, rfl, rfl, rfl⟩ hrun closeDay_sample rfl Run.refl

/-- A close that selects the other correction is taken for a replay, although
the correction that the first one selected is not the one it selects. -/
theorem close_day_swaps_corrections :
    (∃ trace, Run Step sampleToday trace sampleWorked) ∧
      closeDay sampleCloseEnv sampleWorked 1 739852 (sampleClose 7 (by decide)) =
        .ok (sampleResponse, sampleClosed) ∧
      sampleClose 8 (by decide) ≠ sampleClose 7 (by decide) ∧
      (closeDayTx sampleCloseEnv sampleClosed 1 739852 (sampleClose 8 (by decide))).1 =
        .ok { sampleResponse with replayed := true } :=
  ⟨run_sampleWorked, closeDay_sample, by decide +kernel, by decide +kernel⟩

end Runs

end TamForge.Today
