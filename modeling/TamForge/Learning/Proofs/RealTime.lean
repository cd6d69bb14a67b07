import Mathlib.Algebra.Ring.Int.Defs
import TamForge.Learning.Proofs.FocusedTime

/-!
# Counted time and real time

A lane is a set of timer sessions of which no two are open at once.  The seconds
of a lane never exceed the time since its first session started.  The sessions
of one activity are such a lane; those of a day are one only while its
activities are worked on one after another.
-/

namespace TamForge.Learning.ActivityService

open Models ProofSupport

/-- The server time that a call reads. -/
def Event.clock? : Event → Option Instant
  | .call request _ => some request.env.now
  | .planned _ _ | .elsewhere _ _ _ => none

def clocks (trace : List (Transition Db Event)) : List Instant :=
  trace.filterMap fun step => step.label.clock?

def ClockForward (trace : List (Transition Db Event)) : Prop :=
  (clocks trace).Pairwise (· ≤ ·)

/-! ## Lanes -/

/-- Which sessions a lane holds depends on the activity they measure, and no
step moves a session to another lane. -/
structure IsLane (lane : Core → ActivityTimerSession → Bool) : Prop where
  same : ∀ (core : Core) (timer other : ActivityTimerSession),
    other.ownerId = timer.ownerId → other.activityInstanceId = timer.activityInstanceId →
      lane core other = lane core timer
  effect : ∀ {now : Instant} {db after : Db}, Coherent db.core → Effect now db after →
    lane after.core = lane db.core
  plan : ∀ {db : Db} {day : StudyDayRow} {activities : List ActivityRow},
    Coherent db.core → Planned db day activities → ∀ timer ∈ db.timers.rows,
      lane (db.plan day activities).core timer = lane db.core timer

def Solo (lane : Core → ActivityTimerSession → Bool) (step : Transition Db Event) : Prop :=
  ∀ timer ∈ step.after.timers.rows,
    (∀ old ∈ step.before.timers.rows, old.id ≠ timer.id) →
    lane step.before.core timer = true →
    ∀ old ∈ step.before.timers.rows, lane step.before.core old = true → old.endedAt ≠ none

/-- The account of a lane at a time that no clock has passed.  `origin` is any
time before which no session started. -/
structure LaneInv (p : ActivityTimerSession → Bool) (clock : Instant) (core : Core) : Prop where
  started : ∀ timer ∈ core.timers.rows, p timer = true → timer.startedAt ≤ clock
  beaten : ∀ timer ∈ core.timers.rows, p timer = true → timer.endedAt = none →
    timer.lastHeartbeatAt ≤ clock
  single : ∀ timer ∈ core.timers.rows, ∀ other ∈ core.timers.rows, p timer = true →
    p other = true → timer.endedAt = none → other.endedAt = none → timer = other
  closed : (∀ timer ∈ core.timers.rows, p timer = true → timer.endedAt ≠ none) →
    ∀ origin ≤ clock, (∀ timer ∈ core.timers.rows, p timer = true → origin ≤ timer.startedAt) →
      seconds (core.seconds p) ≤ clock - origin
  running : ∀ timer ∈ core.timers.rows, p timer = true → timer.endedAt = none →
    ∀ origin, (∀ other ∈ core.timers.rows, p other = true → origin ≤ other.startedAt) →
      seconds (core.seconds p) ≤ timer.lastHeartbeatAt - origin

section Lanes

variable {p q : ActivityTimerSession → Bool} {clock clock' : Instant} {core core' : Core}

theorem seconds_eq_zero (h : ∀ timer ∈ core.timers.rows, p timer = false) :
    core.seconds p = 0 := by
  apply List.sum_eq_zero_iff_forall_eq_nat.mpr
  intro value hval
  obtain ⟨timer, htmr, rfl⟩ := List.mem_map.mp hval
  rw [h timer htmr]
  rfl

theorem LaneInv.mono (h : LaneInv p clock core) (hle : clock ≤ clock') :
    LaneInv p clock' core := by
  constructor
  · intro timer hmem hp
    exact (h.started timer hmem hp).trans hle
  · intro timer hmem hp hopen
    exact (h.beaten timer hmem hp hopen).trans hle
  · exact h.single
  · intro hclos origin horig hstarts
    by_cases hb : origin ≤ clock
    · have hbound := h.closed hclos origin hb hstarts
      have hstep : clock - origin ≤ clock' - origin := Int.sub_le_sub_right hle origin
      exact hbound.trans hstep
    · -- No session of the lane can have started after the clock.
      have hnone : core.seconds p = 0 := by
        apply seconds_eq_zero
        intro timer hmem
        by_contra hp
        have hsel : p timer = true := by simpa using hp
        exact hb ((hstarts timer hmem hsel).trans (h.started timer hmem hsel))
      rw [hnone]
      exact Int.sub_nonneg_of_le horig
  · exact h.running

theorem LaneInv.congr (h : LaneInv p clock core) (htimers : core'.timers = core.timers)
    (hp : ∀ timer ∈ core.timers.rows, q timer = p timer) : LaneInv q clock core' := by
  have hsecs : core'.seconds q = core.seconds p := by
    unfold Core.seconds
    rw [htimers]
    congr 1
    apply List.map_congr_left
    intro timer hmem
    rw [hp timer hmem]
  constructor
  · intro timer hmem hq
    rw [htimers] at hmem
    exact h.started timer hmem (hp timer hmem ▸ hq)
  · intro timer hmem hq
    rw [htimers] at hmem
    exact h.beaten timer hmem (hp timer hmem ▸ hq)
  · intro timer hmem other ho hq hq'
    rw [htimers] at hmem ho
    exact h.single timer hmem other ho (hp timer hmem ▸ hq) (hp other ho ▸ hq')
  · intro hclos origin horig hstarts
    rw [hsecs]
    rw [htimers] at hclos hstarts
    apply h.closed _ origin horig
    · intro timer hmem hsel
      exact hstarts timer hmem ((hp timer hmem).trans hsel)
    · intro timer hmem hsel
      exact hclos timer hmem ((hp timer hmem).trans hsel)
  · intro timer hmem hq hopen origin hstarts
    rw [hsecs]
    rw [htimers] at hmem hstarts
    apply h.running timer hmem (hp timer hmem ▸ hq) hopen origin
    intro other ho hsel
    exact hstarts other ho ((hp other ho).trans hsel)

theorem LaneInv.bound (h : LaneInv p clock core) {first : ActivityTimerSession}
    (hfst : first ∈ core.timers.rows) (hp : p first = true)
    (hearliest : ∀ timer ∈ core.timers.rows, p timer = true →
      first.startedAt ≤ timer.startedAt) :
    seconds (core.seconds p) ≤ clock - first.startedAt := by
  by_cases hopen : ∃ timer ∈ core.timers.rows, p timer = true ∧ timer.endedAt = none
  · obtain ⟨timer, hmem, hsel, htmr⟩ := hopen
    have hrun := h.running timer hmem hsel htmr first.startedAt hearliest
    have hbeaten := h.beaten timer hmem hsel htmr
    exact hrun.trans (Int.sub_le_sub_right hbeaten _)
  · apply h.closed _ _ (h.started first hfst hp) hearliest
    intro timer hmem hsel htmr
    exact hopen ⟨timer, hmem, hsel, htmr⟩

end Lanes

section Effects

variable {db after : Db} {p : ActivityTimerSession → Bool} {now : Instant} {ownerId : Nat}
  {row : LockedActivity} {timer counted : ActivityTimerSession} {added sequence : Nat}
  {day : StudyDayRow} {days : Serial StudyDayRow} {activities : Serial ActivityRow}
  {attempts : Serial AttemptRow}

theorem LaneInv.opened (h : LaneInv p now db.core) (activityId : Nat) (key : String)
    (hsolo : p (newTimer db ownerId activityId key now) = true →
      ∀ old ∈ db.timers.rows, p old = true → old.endedAt ≠ none) :
    LaneInv p now ⟨days, activities,
      (db.timers.insert fun _ => newTimer db ownerId activityId key now).2, attempts⟩ := by
  have hcases : ∀ timer ∈ (db.timers.insert fun _ =>
      newTimer db ownerId activityId key now).2.rows,
      timer ∈ db.timers.rows ∨ timer = newTimer db ownerId activityId key now := by
    intro timer hmem
    rcases List.mem_append.mp hmem with hold | hnew
    · exact Or.inl hold
    · exact Or.inr (List.mem_singleton.mp hnew)
  have hkept : ∀ timer ∈ db.timers.rows, timer ∈ (db.timers.insert fun _ =>
      newTimer db ownerId activityId key now).2.rows :=
    fun timer hmem => List.mem_append_left _ hmem
  have hself : newTimer db ownerId activityId key now ∈ (db.timers.insert fun _ =>
      newTimer db ownerId activityId key now).2.rows :=
    List.mem_append_right _ (List.mem_singleton.mpr rfl)
  constructor
  · intro timer hmem hp
    rcases hcases timer hmem with hold | rfl
    · exact h.started timer hold hp
    · exact le_refl now
  · intro timer hmem hp hopen
    rcases hcases timer hmem with hold | rfl
    · exact h.beaten timer hold hp hopen
    · exact le_refl now
  · intro timer hmem other ho hp hp' hopen hopen'
    rcases hcases timer hmem with hold | rfl
    · rcases hcases other ho with hold' | rfl
      · exact h.single timer hold other hold' hp hp' hopen hopen'
      · exact absurd hopen (hsolo hp' timer hold hp)
    · rcases hcases other ho with hold' | rfl
      · exact absurd hopen' (hsolo hp other hold' hp')
      · rfl
  · intro hclos origin horig hstarts
    rw [seconds_insert]
    apply h.closed _ origin horig
    · intro timer hmem hp
      exact hstarts timer (hkept timer hmem) hp
    · intro timer hmem hp
      exact hclos timer (hkept timer hmem) hp
  · intro timer hmem hp hopen origin hstarts
    rw [seconds_insert]
    have hearl : ∀ other ∈ db.timers.rows, p other = true → origin ≤ other.startedAt :=
      fun other ho hp' => hstarts other (hkept other ho) hp'
    rcases hcases timer hmem with hold | rfl
    · exact h.running timer hold hp hopen origin hearl
    · exact h.closed (hsolo hp) origin (hstarts _ hself hp) hearl

/-- A heartbeat is counted on a session of the lane, or outside it; the session
may end with it. -/
theorem LaneInv.count (h : LaneInv p now db.core) (hcoh : Coherent db.core)
    (hcnt : Beat db row now timer added sequence day) (hid : counted.id = timer.id)
    (hp : p counted = p timer) (hstart : counted.startedAt = timer.startedAt)
    (hbeat : counted.lastHeartbeatAt = now)
    (hsecs : counted.countedSeconds = timer.countedSeconds + added) :
    LaneInv p now ⟨days, activities, db.writtenTimers counted, attempts⟩ := by
  obtain ⟨hmem, -, -, hopen⟩ := openTimer_spec hcnt.found
  have hcases : ∀ other ∈ (db.writtenTimers counted).rows,
      other = counted ∨ (other ∈ db.timers.rows ∧ other.id ≠ timer.id) := by
    intro other ho
    rcases Serial.mem_replace ho with rfl | ⟨hold, hne⟩
    · exact Or.inl rfl
    · exact Or.inr ⟨hold, hid ▸ hne⟩
  have hself : counted ∈ (db.writtenTimers counted).rows := Serial.mem_replace_self hmem hid
  have hkept : ∀ other ∈ db.timers.rows, other.id ≠ timer.id →
      other ∈ (db.writtenTimers counted).rows :=
    fun other ho hne => Serial.mem_replace_of_ne ho (hid ▸ hne)
  have htot : Core.seconds ⟨days, activities, db.writtenTimers counted, attempts⟩ p =
      db.core.seconds p + if p timer then added else 0 :=
    seconds_written hcoh hmem hid hp hsecs
  -- Every session of the lane started where one of the written rows did.
  have hstarts : ∀ origin, (∀ other ∈ (db.writtenTimers counted).rows, p other = true →
      origin ≤ other.startedAt) → ∀ other ∈ db.timers.rows, p other = true →
        origin ≤ other.startedAt := by
    intro origin ha other ho hsel
    by_cases hsame : other.id = timer.id
    · obtain rfl := hcoh.timers.eq_of_key ho hmem hsame
      rw [← hstart]
      exact ha counted hself (hp.trans hsel)
    · exact ha other (hkept other ho hsame) hsel
  -- The lane after the heartbeat, when the session is one of its own.
  have hgrown : p timer = true → ∀ origin, (∀ other ∈ db.timers.rows, p other = true →
      origin ≤ other.startedAt) →
        seconds (db.core.seconds p + added) ≤ now - origin := by
    intro hsel origin hearl
    have hrun := h.running timer hmem hsel hopen origin hearl
    have helapsed := hcnt.elapsed
    unfold seconds at hrun helapsed ⊢
    have hsum : ((db.core.seconds p + added : Nat) : Int) * 1000000 =
        (db.core.seconds p : Int) * 1000000 + (added : Int) * 1000000 := by
      rw [Int.natCast_add, Int.add_mul]
    rw [hsum]
    calc (db.core.seconds p : Int) * 1000000 + (added : Int) * 1000000
        ≤ (timer.lastHeartbeatAt - origin) + (now - timer.lastHeartbeatAt) :=
          Int.add_le_add hrun helapsed
      _ = now - origin := sub_add_sub_cancel' _ _ _
  constructor
  · intro other ho hsel
    rcases hcases other ho with rfl | ⟨hold, -⟩
    · rw [hstart]
      exact h.started timer hmem (hp ▸ hsel)
    · exact h.started other hold hsel
  · intro other ho hsel hend
    rcases hcases other ho with rfl | ⟨hold, -⟩
    · exact le_of_eq hbeat
    · exact h.beaten other hold hsel hend
  · intro first hfst second hsec hp₁ hp₂ hopen₁ hopen₂
    rcases hcases first hfst with rfl | ⟨hold₁, hne₁⟩
    · rcases hcases second hsec with rfl | ⟨hold₂, hne₂⟩
      · rfl
      · have hsame := h.single timer hmem second hold₂ (hp ▸ hp₁) hp₂ hopen hopen₂
        exact absurd (congrArg ActivityTimerSession.id hsame.symm) hne₂
    · rcases hcases second hsec with rfl | ⟨hold₂, hne₂⟩
      · have hsame := h.single timer hmem first hold₁ (hp ▸ hp₂) hp₁ hopen hopen₁
        exact absurd (congrArg ActivityTimerSession.id hsame.symm) hne₁
      · exact h.single first hold₁ second hold₂ hp₁ hp₂ hopen₁ hopen₂
  · intro hclos origin horig ha
    have hearl := hstarts origin ha
    rw [htot]
    by_cases hsel : p timer = true
    · rw [if_pos hsel]
      exact hgrown hsel origin hearl
    · rw [if_neg hsel, Nat.add_zero]
      apply h.closed _ origin horig hearl
      intro other ho ho'
      have hne : other.id ≠ timer.id := by
        intro hsame
        obtain rfl := hcoh.timers.eq_of_key ho hmem hsame
        exact hsel ho'
      exact hclos other (hkept other ho hne) ho'
  · intro other ho ho' hend origin ha
    have hearl := hstarts origin ha
    rw [htot]
    rcases hcases other ho with rfl | ⟨hold, hne⟩
    · have hsel : p timer = true := hp ▸ ho'
      rw [if_pos hsel, hbeat]
      exact hgrown hsel origin hearl
    · have hfar : ¬ p timer = true := by
        intro hsel
        have hsame := h.single timer hmem other hold hsel ho' hopen hend
        exact hne (congrArg ActivityTimerSession.id hsame.symm)
      rw [if_neg hfar, Nat.add_zero]
      exact h.running other hold ho' hend origin hearl

variable {lane : Core → ActivityTimerSession → Bool} {event : Event}

theorem LaneInv.effect (h : LaneInv (lane db.core) now db.core) (hlane : IsLane lane)
    (hcoh : Coherent db.core) (heff : Effect now db after)
    (hsolo : Solo lane ⟨db, event, after⟩) : LaneInv (lane after.core) now after.core := by
  have hsame := hlane.effect hcoh heff
  rw [hsame]
  cases heff with
  | quiet core =>
    rw [core]
    exact h
  | shown loaded changed activity_eq core =>
    rw [core]
    exact h.congr rfl fun _ _ => rfl
  | @opened ownerId row _ _ key loaded from_state open_day moved free day_eq core =>
    rw [core]
    apply h.opened row.activity.id key
    intro hsel
    apply hsolo (newTimer db ownerId row.activity.id key now) _ _ hsel
    · have hrows : after.timers.rows = db.timers.rows ++
          [newTimer db ownerId row.activity.id key now] :=
        congrArg (fun core => core.timers.rows) core
      show _ ∈ after.timers.rows
      rw [hrows]
      exact List.mem_append_right _ (List.mem_singleton.mpr rfl)
    · intro old hold
      exact Nat.ne_of_lt (hcoh.timers.lt old hold)
  | beat loaded active counted core =>
    rw [core]
    exact h.count hcoh counted rfl (hlane.same _ _ _ rfl rfl) rfl rfl rfl
  | ended pausedAt loaded allowed inactive moved counted saved core =>
    rw [core]
    exact h.count hcoh counted rfl (hlane.same _ _ _ rfl rfl) rfl rfl rfl
  | dropped loaded allowed closed moved core =>
    rw [core]
    exact h.congr rfl fun _ _ => rfl
  | reviewed loaded committed moved core =>
    rw [core]
    exact h.congr rfl fun _ _ => rfl

end Effects

section Runs

variable {lane : Core → ActivityTimerSession → Bool} {start final : Db}
  {trace : List (Transition Db Event)}

theorem laneInv_of_initial (h : Initial start) (clock : Instant) :
    LaneInv (lane start.core) clock start.core := by
  have hnil : ∀ timer, timer ∉ start.core.timers.rows := by
    intro timer hmem
    simp [Db.core, h.timers, Serial.empty] at hmem
  constructor
  · intro timer hmem
    exact absurd hmem (hnil timer)
  · intro timer hmem
    exact absurd hmem (hnil timer)
  · intro timer hmem
    exact absurd hmem (hnil timer)
  · intro _ origin horig _
    rw [seconds_eq_zero fun timer hmem => absurd hmem (hnil timer)]
    exact Int.sub_nonneg_of_le horig
  · intro timer hmem
    exact absurd hmem (hnil timer)

theorem clocks_snoc (step : Transition Db Event) :
    clocks (trace ++ [step]) = clocks trace ++ (step.label.clock?).toList := by
  unfold clocks
  rw [List.filterMap_append]
  cases hclk : step.label.clock? with
  | none => simp [hclk]
  | some now => simp [hclk]

/-- In a run with a forward clock a lane keeps its account at every time that
no clock has passed. -/
theorem laneInv_of_run (hlane : IsLane lane) (hinit : Initial start)
    (hrun : Run Step start trace final) (hforward : ClockForward trace)
    (hsolo : ∀ step ∈ trace, Solo lane step) {latest : Instant}
    (hlatest : ∀ clock ∈ clocks trace, clock ≤ latest) :
    LaneInv (lane final.core) latest final.core := by
  have key : Coherent final.core ∧ ∀ latest, (∀ clock ∈ clocks trace, clock ≤ latest) →
      LaneInv (lane final.core) latest final.core := by
    induction hrun with
    | refl =>
      exact ⟨coherent_of_initial hinit, fun latest _ => laneInv_of_initial hinit latest⟩
    | @snoc trace s t a hrun hstep ih =>
      rw [ClockForward, clocks_snoc, List.pairwise_append] at hforward
      obtain ⟨hearl, -, hb⟩ := hforward
      obtain ⟨hcoh, hinv⟩ := ih hearl
        (fun step hmem => hsolo step (List.mem_append_left _ hmem))
        (fun clock hmem => hlatest clock (by
          rw [clocks_snoc]
          exact List.mem_append_left _ hmem))
      refine ⟨hcoh.step hstep, ?_⟩
      intro latest hle
      have hlast := hsolo ⟨s, a, t⟩ (List.mem_append_right _ (List.mem_singleton.mpr rfl))
      rw [clocks_snoc] at hle
      have hold : ∀ clock ∈ clocks trace, clock ≤ latest :=
        fun clock hmem => hle clock (List.mem_append_left _ hmem)
      cases hstep.effect with
      | planned hplan => exact (hinv latest hold).congr rfl (hlane.plan hcoh hplan)
      | @call call outcome _ heff =>
        -- The clock of the call is at least every clock before it.
        have hnow : LaneInv (lane s.core) call.env.now s.core :=
          hinv call.env.now fun clock hmem =>
            hb clock hmem call.env.now (List.mem_singleton.mpr rfl)
        have ha := hnow.effect hlane hcoh heff hlast
        exact ha.mono (hle call.env.now
          (List.mem_append_right _ (List.mem_singleton.mpr rfl)))
      | elsewhere hcore =>
        rw [hcore]
        exact hinv latest hold
  exact key.2 latest hlatest

end Runs

/-! ## The lane of an activity and the lane of a day -/

section Instances

variable {db after : Db} {event : Event} {now : Instant}

def ofActivity (activity : ActivityRow) (_ : Core) (timer : ActivityTimerSession) : Bool :=
  timer.ownerId = activity.ownerId ∧ timer.activityInstanceId = activity.id

def dayLane (ownerId dayId : Nat) (core : Core) : ActivityTimerSession → Bool :=
  core.ofDay ownerId dayId

theorem isLane_ofActivity (act : ActivityRow) : IsLane (ofActivity act) := by
  constructor
  · intro core timer other hown hact
    rw [ofActivity, ofActivity, hown, hact]
  · intros
    rfl
  · intros
    rfl

theorem isLane_dayLane (ownerId dayId : Nat) : IsLane (dayLane ownerId dayId) := by
  constructor
  · intro core timer other hown hact
    rw [dayLane, Core.ofDay, Core.ofDay, hown, hact]
  · intro now db after hcoh heff
    unfold dayLane
    cases heff with
    | quiet core => rw [core]
    | shown loaded changed activity_eq core =>
      rw [core]
      apply ofDay_written hcoh loaded.activity_mem
      · rw [activity_eq]
      · rw [activity_eq]
      · rw [activity_eq]
    | opened key loaded from_state open_day moved free day_eq core =>
      rw [core]
      exact ofDay_written hcoh loaded.activity_mem moved.id moved.ownerId
        moved.studyDayId _ _
    | beat loaded active counted core =>
      rw [core]
      rfl
    | ended pausedAt loaded allowed inactive moved counted saved core =>
      rw [core]
      exact ofDay_written hcoh loaded.activity_mem moved.id moved.ownerId
        moved.studyDayId _ _
    | dropped loaded allowed closed moved core =>
      rw [core]
      exact ofDay_written hcoh loaded.activity_mem moved.id moved.ownerId
        moved.studyDayId _ _
    | reviewed loaded committed moved core =>
      rw [core]
      exact ofDay_written hcoh loaded.activity_mem moved.id moved.ownerId
        moved.studyDayId _ _
  · intro db day activities hcoh hplan timer hmem
    exact ofDay_plan hcoh hplan hmem _ _

theorem mem_writtenTimers_id {timer counted : ActivityTimerSession}
    (hmem : timer ∈ db.timers.rows) (hid : counted.id = timer.id) :
    ∀ later ∈ (db.writtenTimers counted).rows, ∃ old ∈ db.timers.rows, old.id = later.id := by
  intro later hlat
  rcases Serial.mem_replace hlat with rfl | ⟨hold, -⟩
  · exact ⟨timer, hmem, hid.symm⟩
  · exact ⟨later, hold, rfl⟩

theorem Effect.added (heff : Effect now db after) {timer : ActivityTimerSession}
    (hmem : timer ∈ after.core.timers.rows) (hnew : ∀ old ∈ db.timers.rows, old.id ≠ timer.id) :
    ∀ old ∈ db.timers.rows, old.activityInstanceId = timer.activityInstanceId →
      old.endedAt ≠ none := by
  have hkept : timer ∈ db.timers.rows → False := fun hold => hnew timer hold rfl
  have hbeaten : (∃ old ∈ db.timers.rows, old.id = timer.id) → False :=
    fun ⟨old, hold, hid⟩ => hnew old hold hid
  cases heff with
  | quiet core =>
    rw [core] at hmem
    exact absurd hmem hkept
  | shown loaded changed activity_eq core =>
    rw [core] at hmem
    exact absurd hmem hkept
  | opened key loaded from_state open_day moved free day_eq core =>
    rw [core] at hmem
    rcases List.mem_append.mp hmem with hold | hself
    · exact absurd hold hkept
    · rw [List.mem_singleton.mp hself]
      exact free
  | beat loaded active counted core =>
    rw [core] at hmem
    have hf := (openTimer_spec counted.found).1
    exact (hbeaten (mem_writtenTimers_id hf (by rfl) timer hmem)).elim
  | ended pausedAt loaded allowed inactive moved counted saved core =>
    rw [core] at hmem
    have hf := (openTimer_spec counted.found).1
    exact (hbeaten (mem_writtenTimers_id hf (by rfl) timer hmem)).elim
  | dropped loaded allowed closed moved core =>
    rw [core] at hmem
    exact absurd hmem hkept
  | reviewed loaded committed moved core =>
    rw [core] at hmem
    exact absurd hmem hkept

theorem solo_ofActivity (act : ActivityRow) (hstep : Step db event after) :
    Solo (ofActivity act) ⟨db, event, after⟩ := by
  intro timer hmem hnew hsel old hold hsel'
  have hsame : old.activityInstanceId = timer.activityInstanceId := by
    simp only [ofActivity, decide_eq_true_eq] at hsel hsel'
    rw [hsel.2, hsel'.2]
  cases hstep.effect with
  | planned hplan => exact absurd rfl (hnew timer hmem)
  | call heff => exact heff.added hmem hnew old hold hsame
  | elsewhere hcore =>
    have heff : Effect 0 db after := .quiet hcore
    exact heff.added hmem hnew old hold hsame

end Instances

/-- The sessions that a predicate selects began with `first`. -/
def FirstOf (p : ActivityTimerSession → Bool) (db : Db) (first : ActivityTimerSession) : Prop :=
  first ∈ db.timers.rows ∧ p first = true ∧
    ∀ timer ∈ db.timers.rows, p timer = true → first.startedAt ≤ timer.startedAt

/-- In every run whose clock does not go back, the sessions of an activity count
at most the time since the first of them started.  Those of a day do so as well
when each of them was opened while none of the day was open. -/
theorem counted_time_is_real_time {start final : Db} {trace : List (Transition Db Event)}
    {latest : Instant} (hinitial : Initial start) (hrun : Run Step start trace final)
    (hforward : ClockForward trace) (hlatest : ∀ clock ∈ clocks trace, clock ≤ latest) :
    (∀ activity ∈ final.activities.rows, ∀ first,
      FirstOf (ofActivity activity final.core) final first →
        seconds (final.activitySeconds activity) ≤ latest - first.startedAt) ∧
      ∀ day ∈ final.days.rows, (∀ step ∈ trace, Solo (dayLane day.ownerId day.id) step) →
        ∀ first, FirstOf (final.timerOfDay day.ownerId day.id) final first →
          seconds (final.daySeconds day.ownerId day.id) ≤ latest - first.startedAt := by
  constructor
  · rintro activity - first ⟨hmem, hselected, hearliest⟩
    have hsolo : ∀ step ∈ trace, Solo (ofActivity activity) step :=
      hrun.forall_transition (I := fun _ => True) trivial (fun _ _ _ _ _ => trivial)
        fun _ _ _ _ hstep => solo_ofActivity activity hstep
    have hinv := laneInv_of_run (isLane_ofActivity activity) hinitial hrun hforward hsolo
      hlatest
    have htotal : final.activitySeconds activity =
        final.core.seconds (ofActivity activity final.core) := sum_map_filter _ _
    rw [htotal]
    exact hinv.bound hmem hselected hearliest
  · rintro day - hsolo first ⟨hmem, hselected, hearliest⟩
    have hinv := laneInv_of_run (isLane_dayLane day.ownerId day.id) hinitial hrun hforward hsolo
      hlatest
    rw [daySeconds_eq]
    exact hinv.bound hmem hselected hearliest

/-- The same two activities one after the other. -/
def serialCalls : List Call :=
  [sampleCall 0 (.start 1 1) "start-1", sampleCall 30 (.pause 1 2 1) "pause-1",
    sampleCall 30 (.start 2 1) "start-2", sampleCall 60 (.heartbeat 2 2 1) "beat-2"]

def serialTrace : List (Transition Db Event) :=
  ⟨sampleStore, .planned sampleDay sampleActivities, samplePlanned⟩ ::
    callTrace samplePlanned serialCalls

theorem run_serial :
    Run Step sampleStore serialTrace (afterCalls samplePlanned serialCalls) :=
  (Run.single (Step.planned planned_sample)).append (run_calls samplePlanned serialCalls)

/-- A minute of the clock, half of it in either activity, is a minute of the
day. -/
theorem counted_time_serial :
    (∃ day ∈ (afterCalls samplePlanned serialCalls).days.rows,
      (∀ step ∈ serialTrace, Solo (dayLane day.ownerId day.id) step) ∧
      (afterCalls samplePlanned serialCalls).daySeconds day.ownerId day.id = 60) ∧
      (∀ activity ∈ (afterCalls samplePlanned serialCalls).activities.rows, ∀ first,
        FirstOf (ofActivity activity (afterCalls samplePlanned serialCalls).core)
            (afterCalls samplePlanned serialCalls) first →
          seconds ((afterCalls samplePlanned serialCalls).activitySeconds activity) ≤
            seconds 60 - first.startedAt) ∧
      ∀ day ∈ (afterCalls samplePlanned serialCalls).days.rows,
        (∀ step ∈ serialTrace, Solo (dayLane day.ownerId day.id) step) →
          ∀ first, FirstOf ((afterCalls samplePlanned serialCalls).timerOfDay day.ownerId day.id)
              (afterCalls samplePlanned serialCalls) first →
            seconds ((afterCalls samplePlanned serialCalls).daySeconds day.ownerId day.id) ≤
              seconds 60 - first.startedAt :=
  ⟨by unfold Solo; decide +kernel, counted_time_is_real_time initial_sampleStore run_serial
    (by unfold ClockForward; decide +kernel) (by decide +kernel)⟩

/-- Two activities of one day run at the same time: thirty seconds of the clock
are sixty of the day. -/
theorem day_counts_time_twice :
    ¬ ∀ (start final : Db) (trace : List (Transition Db Event)) (latest : Instant),
      Initial start → Run Step start trace final → ClockForward trace →
      (∀ clock ∈ clocks trace, clock ≤ latest) →
      ∀ day ∈ final.days.rows, ∀ first,
        FirstOf (final.timerOfDay day.ownerId day.id) final first →
          seconds (final.daySeconds day.ownerId day.id) ≤ latest - first.startedAt := by
  intro hall
  have hclaim := hall sampleStore sampleFinal sampleTrace (seconds 30) initial_sampleStore
    run_sample (by unfold ClockForward; decide +kernel) (by decide +kernel)
  have hfirst : ∃ day ∈ sampleFinal.days.rows, ∃ first ∈ sampleFinal.timers.rows,
      (sampleFinal.timerOfDay day.ownerId day.id first = true ∧
        ∀ timer ∈ sampleFinal.timers.rows,
          sampleFinal.timerOfDay day.ownerId day.id timer = true →
            first.startedAt ≤ timer.startedAt) ∧
      ¬ seconds (sampleFinal.daySeconds day.ownerId day.id) ≤ seconds 30 - first.startedAt := by
    decide +kernel
  obtain ⟨day, hday, first, hmem, ⟨hselected, hearliest⟩, hexceeds⟩ := hfirst
  exact hexceeds (hclaim day hday first ⟨hmem, hselected, hearliest⟩)

end TamForge.Learning.ActivityService
