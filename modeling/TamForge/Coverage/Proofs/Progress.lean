import TamForge.Coverage.Ledger

/-!
# Coverage while work moves on

What the ledger says of a task against what has happened to its activities.
The state machine has two states that neither `DONE_STATES` nor `OPEN_STATES`
lists, `ai_processing` and `demonstrated`; apart from them the status of a task
follows its activities.
-/

namespace TamForge.Coverage

open Learning Models ProofSupport

abbrev History := List (Transition Tables LedgerEvent)

def Moved (trace : History) (id : Nat) (target : ActivityState) : Prop :=
  ∃ e ∈ trace, e.label = .moved id target

/-- The status of a task after a history: not `pending` once an activity was
started that was not classified incomplete, and one of the two final statuses
once an activity reached `feedback_ready`. -/
def Forward (trace : History) (tables : Tables) (taskId : Nat) : Prop :=
  (∀ activity ∈ taskActivities tables taskId, Moved trace activity.id .active →
    ¬Moved trace activity.id .incomplete → coverageStatus (facts tables taskId) ≠ .pending) ∧
  ((∃ activity ∈ taskActivities tables taskId, Moved trace activity.id .feedbackReady) →
    coverageStatus (facts tables taskId) = .completed ∨
      coverageStatus (facts tables taskId) = .notAssessed)

def isDone (state : ActivityState) : Bool := doneStates.contains (stateText state)

def isOpen (state : ActivityState) : Bool := openStates.contains (stateText state)

/-- No activity of a task is in `ai_processing` unless another is open or done, and
none is in `demonstrated` unless another is done. -/
def Counted (activities : List ActivityInstance) : Prop :=
  ((∃ activity ∈ activities, activity.state = .aiProcessing) →
    ∃ other ∈ activities, isOpen other.state = true ∨ isDone other.state = true) ∧
  ((∃ activity ∈ activities, activity.state = .demonstrated) →
    ∃ other ∈ activities, isDone other.state = true)

section Status

variable {tables : Tables} {taskId : Nat}

theorem any_state (listed : List String) :
    ((facts tables taskId).states.any fun state => listed.contains state) = true ↔
      ∃ act ∈ taskActivities tables taskId,
        listed.contains (stateText act.state) = true := by
  rw [List.any_eq_true]
  simp only [facts, List.mem_map]
  constructor
  · rintro ⟨_, ⟨act, hact, rfl⟩, hlist⟩
    exact ⟨act, hact, hlist⟩
  · rintro ⟨act, hact, hlist⟩
    exact ⟨_, ⟨act, hact, rfl⟩, hlist⟩

theorem status_final_iff :
    (coverageStatus (facts tables taskId) = .completed ∨
      coverageStatus (facts tables taskId) = .notAssessed) ↔
      ∃ act ∈ taskActivities tables taskId, isDone act.state = true := by
  simp only [isDone, ← any_state doneStates]
  rw [coverageStatus]
  split
  · next hdone =>
    simp only [hdone, iff_true]
    split
    · exact .inr rfl
    · exact .inl rfl
  · next hdone =>
    simp only [hdone, Bool.false_eq_true, iff_false]
    split <;> simp

theorem status_pending_iff :
    coverageStatus (facts tables taskId) = .pending ↔
      ∀ act ∈ taskActivities tables taskId,
        isOpen act.state = false ∧ isDone act.state = false := by
  have hopen : _ ↔ ∃ act ∈ taskActivities tables taskId, _ := any_state openStates
  have hdone : _ ↔ ∃ act ∈ taskActivities tables taskId, _ := any_state doneStates
  rw [coverageStatus]
  split
  · next hany =>
    obtain ⟨act, hact, hlist⟩ := hdone.mp hany
    constructor
    · intro h
      split at h <;> cases h
    · intro h
      exact absurd hlist (by simpa [isDone] using (h act hact).2)
  · next hnone =>
    split
    · next hany =>
      obtain ⟨act, hact, hlist⟩ := hopen.mp hany
      constructor
      · intro h
        cases h
      · intro h
        exact absurd hlist (by simpa [isOpen] using (h act hact).1)
    · next hnotOpen =>
      refine ⟨fun _ act hact => ⟨?_, ?_⟩, fun _ => rfl⟩
      · exact Bool.eq_false_iff.mpr fun hlist => hnotOpen (hopen.mpr ⟨act, hact, hlist⟩)
      · exact Bool.eq_false_iff.mpr fun hlist => hnone (hdone.mpr ⟨act, hact, hlist⟩)

end Status

/-! ## The history of an activity -/

/-- Every activity that a history moves is among the rows, and no two rows are of
one activity. -/
structure Recorded (trace : History) (tables : Tables) : Prop where
  known : ∀ id target, Moved trace id target → ∃ activity ∈ tables.activities, activity.id = id
  distinct : (tables.activities.map ActivityInstance.id).Nodup

variable {trace : History} {tables tables' : Tables} {event : LedgerEvent}

theorem moved_snoc {e : Transition Tables LedgerEvent} {id : Nat} {target : ActivityState} :
    Moved (trace ++ [e]) id target ↔ Moved trace id target ∨ e.label = .moved id target := by
  simp only [Moved, List.mem_append, List.mem_singleton, or_and_right, exists_or,
    exists_eq_left]

theorem ids_moved {left right : List ActivityInstance} {before after : ActivityInstance}
    (hid : after.id = before.id) :
    (left ++ after :: right).map ActivityInstance.id =
      (left ++ before :: right).map ActivityInstance.id := by
  simp only [List.map_append, List.map_cons, hid]

theorem recorded_step (hrecd : Recorded trace tables) (hstep : LedgerStep tables event tables') :
    Recorded (trace ++ [⟨tables, event, tables'⟩]) tables' := by
  cases hstep with
  | @planned activity hready hnew =>
    refine ⟨?_, ?_⟩
    · intro id tgt hmov
      rcases moved_snoc.mp hmov with hb | hnow
      · obtain ⟨known, hknown, hid⟩ := hrecd.known id tgt hb
        exact ⟨known, List.mem_append_left _ hknown, hid⟩
      · cases hnow
    · rw [List.map_append, List.map_singleton, List.nodup_append]
      refine ⟨hrecd.distinct, List.nodup_singleton _, ?_⟩
      intro id hid other ho
      obtain ⟨known, hknown, rfl⟩ := List.mem_map.mp hid
      rw [List.mem_singleton.mp ho]
      exact hnew known hknown
  | @moved left right before after tgt hrows hmoves =>
    have hids : (left ++ after :: right).map ActivityInstance.id =
        (left ++ before :: right).map ActivityInstance.id := ids_moved hmoves.id
    refine ⟨?_, ?_⟩
    · intro id goal hmov
      have hid : id ∈ (left ++ after :: right).map ActivityInstance.id := by
        rw [hids, ← hrows]
        rcases moved_snoc.mp hmov with hb | hnow
        · obtain ⟨known, hknown, rfl⟩ := hrecd.known id goal hb
          exact List.mem_map_of_mem hknown
        · cases hnow
          rw [hrows]
          simp
      exact List.mem_map.mp hid
    · change ((left ++ after :: right).map ActivityInstance.id).Nodup
      rw [hids, ← hrows]
      exact hrecd.distinct
  | added =>
    refine ⟨?_, hrecd.distinct⟩
    intro id tgt hmov
    rcases moved_snoc.mp hmov with hb | hnow
    · exact hrecd.known id tgt hb
    · cases hnow

/-- A property of states that holds at first of none, and after a move of what it
held of before and of one state. -/
structure Remembers (goal : ActivityState) (p : ActivityState → Bool) : Prop where
  ready : p .ready = false
  moved : ∀ pair ∈ transitions, p pair.2 = (p pair.1 || pair.2 == goal)

theorem moved_iff {goal : ActivityState} {p : ActivityState → Bool} (hp : Remembers goal p)
    (hrun : Run LedgerStep Tables.empty trace tables) :
    Recorded trace tables ∧
      ∀ act ∈ tables.activities, Moved trace act.id goal ↔ p act.state = true := by
  refine hrun.invariant (I := fun trace tables => Recorded trace tables ∧
    ∀ act ∈ tables.activities, Moved trace act.id goal ↔ p act.state = true)
    ⟨⟨?_, List.nodup_nil⟩, by simp [Tables.empty]⟩ ?_
  · rintro id target ⟨e, he, -⟩
    cases he
  rintro trace tables event tables' ⟨hrecd, hall⟩ hstep
  refine ⟨recorded_step hrecd hstep, ?_⟩
  cases hstep with
  | @planned act hready hfresh =>
    intro other ho
    have hnot : ¬(LedgerEvent.planned act.id = .moved other.id goal) := by
      intro h
      cases h
    rw [moved_snoc, or_iff_left hnot]
    rcases List.mem_append.mp ho with hold | hnew
    · exact hall other hold
    · rw [List.mem_singleton.mp hnew, hready, hp.ready]
      simp only [Bool.false_eq_true, iff_false]
      intro hmov
      obtain ⟨known, hknown, hid⟩ := hrecd.known _ _ hmov
      exact hfresh known hknown hid
  | @moved left right before after target hrows hmoves =>
    have hb : before ∈ tables.activities := by
      rw [hrows]
      simp
    obtain ⟨_, _, _, hok⟩ := hmoves.allowed
    have ha : p after.state = (p before.state || target == goal) := by
      rw [hmoves.state]
      exact hp.moved _ (transition_ok hok).1
    have hdist := hrecd.distinct
    rw [hrows, List.map_append, List.map_cons, List.nodup_middle, List.nodup_cons] at hdist
    intro other ho
    rw [moved_snoc]
    change Moved trace other.id goal ∨ LedgerEvent.moved before.id target = .moved other.id goal ↔ _
    by_cases hsame : other = after
    · rw [hsame, hmoves.id, hall before hb, ha, Bool.or_eq_true, beq_iff_eq]
      simp only [LedgerEvent.moved.injEq, true_and]
    · have hold : other ∈ left ++ right := by
        rcases List.mem_append.mp ho with h | h
        · exact List.mem_append_left _ h
        · rcases List.mem_cons.mp h with h | h
          · exact absurd h hsame
          · exact List.mem_append_right _ h
      have hne : ¬(LedgerEvent.moved before.id target = .moved other.id goal) := by
        intro h
        have hid : before.id = other.id := (LedgerEvent.moved.inj h).1
        rw [hid, ← List.map_append] at hdist
        exact hdist.1 (List.mem_map_of_mem hold)
      rw [or_iff_left hne]
      refine hall other ?_
      rw [hrows]
      rcases List.mem_append.mp hold with h | h
      · exact List.mem_append_left _ h
      · exact List.mem_append_right _ (List.mem_cons_of_mem _ h)
  | added =>
    intro other ho
    have hnot : ¬(LedgerEvent.added = .moved other.id goal) := by
      intro h
      cases h
    rw [moved_snoc, or_iff_left hnot]
    exact hall other ho

def begun : ActivityState → Bool
  | .ready | .superseded => false
  | _ => true

/-- The activity has reached `feedback_ready`. -/
def answered : ActivityState → Bool
  | .feedbackReady | .correctionDue | .demonstrated | .needsWork => true
  | _ => false

theorem remembers_begun : Remembers .active begun := ⟨rfl, by decide⟩

theorem remembers_answered : Remembers .feedbackReady answered := ⟨rfl, by decide⟩

theorem remembers_incomplete : Remembers .incomplete fun state => state == .incomplete :=
  ⟨rfl, by decide⟩

theorem begun_cases {state : ActivityState} (hbegun : begun state = true)
    (hcompl : state ≠ .incomplete) :
    isOpen state = true ∨ isDone state = true ∨ state = .aiProcessing ∨ state = .demonstrated := by
  cases state <;> simp_all [begun, isOpen, isDone, stateText, openStates, doneStates]

theorem answered_cases {state : ActivityState} (h : answered state = true) :
    isDone state = true ∨ state = .demonstrated := by
  cases state <;> simp_all [answered, isDone, stateText, doneStates]

theorem mem_taskActivities {taskId : Nat} {act : ActivityInstance}
    (h : act ∈ taskActivities tables taskId) : act ∈ tables.activities := by
  rw [taskActivities, List.mem_insertionSort] at h
  exact (List.mem_filter.mp h).1

/-- The status of a task goes forward with its activities exactly where none of
them is hidden in a state that the ledger does not list; the counts of a
summary always add up. -/
theorem coverage_forward_iff (hrun : Run LedgerStep Tables.empty trace tables) (taskId : Nat) :
    (Forward trace tables taskId ↔ Counted (taskActivities tables taskId)) ∧
      ∀ items queue, (summarize items queue).completed + (summarize items queue).inProgress +
        (summarize items queue).pending + (summarize items queue).notAssessed =
          (summarize items queue).requiredItems := by
  refine ⟨?_, ?_⟩
  · have hbegun : ∀ activity ∈ taskActivities tables taskId, _ :=
      fun activity h => (moved_iff remembers_begun hrun).2 activity (mem_taskActivities h)
    have hanswered : ∀ activity ∈ taskActivities tables taskId, _ :=
      fun activity h => (moved_iff remembers_answered hrun).2 activity (mem_taskActivities h)
    have hincomplete : ∀ activity ∈ taskActivities tables taskId, _ :=
      fun activity h => (moved_iff remembers_incomplete hrun).2 activity (mem_taskActivities h)
    constructor
    · rintro ⟨hstarted, hfinal⟩
      refine ⟨?_, ?_⟩
      · rintro ⟨activity, hactivity, hstate⟩
        have hnot := hstarted activity hactivity
          ((hbegun activity hactivity).mpr (by rw [hstate]; rfl))
          (by rw [hincomplete activity hactivity, hstate]; decide)
        rw [Ne, status_pending_iff] at hnot
        push Not at hnot
        obtain ⟨other, hother, h⟩ := hnot
        refine ⟨other, hother, ?_⟩
        by_cases hopen : isOpen other.state = true
        · exact .inl hopen
        · exact .inr (Bool.not_eq_false _ ▸ h (Bool.eq_false_iff.mpr hopen))
      · rintro ⟨activity, hactivity, hstate⟩
        exact status_final_iff.mp (hfinal ⟨activity, hactivity,
          (hanswered activity hactivity).mpr (by rw [hstate]; rfl)⟩)
    · rintro ⟨hprocessing, hdemonstrated⟩
      refine ⟨?_, ?_⟩
      · intro activity hactivity hstarted hcomplete hpending
        rw [status_pending_iff] at hpending
        have hlisted : ∃ other ∈ taskActivities tables taskId,
            isOpen other.state = true ∨ isDone other.state = true := by
          have hne : activity.state ≠ .incomplete := by
            intro hstate
            exact hcomplete ((hincomplete activity hactivity).mpr (by rw [hstate]; rfl))
          rcases begun_cases ((hbegun activity hactivity).mp hstarted) hne with h | h | h | h
          · exact ⟨activity, hactivity, .inl h⟩
          · exact ⟨activity, hactivity, .inr h⟩
          · exact hprocessing ⟨activity, hactivity, h⟩
          · obtain ⟨other, hother, hdone⟩ := hdemonstrated ⟨activity, hactivity, h⟩
            exact ⟨other, hother, .inr hdone⟩
        obtain ⟨other, hother, hopen | hdone⟩ := hlisted
        · rw [(hpending other hother).1] at hopen
          cases hopen
        · rw [(hpending other hother).2] at hdone
          cases hdone
      · rintro ⟨activity, hactivity, hmoved⟩
        rw [status_final_iff]
        rcases answered_cases ((hanswered activity hactivity).mp hmoved) with h | h
        · exact ⟨activity, hactivity, h⟩
        · exact hdemonstrated ⟨activity, hactivity, h⟩
  · intro items queue
    simp only [summarize, statusCount]
    induction items with
    | nil => rfl
    | cons first rest ih =>
      simp only [List.countP_cons, List.length_cons]
      cases hstatus : first.status <;> simp <;> omega

/-! ## A run -/

def sampleRow (state : ActivityState) (version : Nat) : ActivityInstance where
  id := 1
  ownerId := 1
  studyDayId := 1
  roadmapVersionId := 1
  taskDefinitionId := 1
  state := state
  attemptKind := some .attemptA
  classification := .required
  sourceHidden := false
  optimisticVersion := version
  strongerEvidenceActivityId := none
  startedAt := none
  outputCommittedAt := none
  completedAt := none
  id_pos := Nat.one_pos
  id_le := one_le_bigintMax

def sampleTables (state : ActivityState) (version : Nat) : Tables :=
  ⟨[sampleRow state version], [], [], []⟩

theorem sample_moves {current tgt : ActivityState} {ver : Nat}
    (h : transition current tgt ver ver .weekday .planned = .ok ⟨tgt, ver + 1⟩) :
    LedgerStep (sampleTables current ver) (.moved 1 tgt)
      (sampleTables tgt (ver + 1)) :=
  @LedgerStep.moved (sampleTables current ver) [] [] (sampleRow current ver)
    (sampleRow tgt (ver + 1)) tgt rfl
    ⟨rfl, rfl, rfl, ver, .weekday, .planned, h⟩

def sampleHistory : History :=
  [⟨Tables.empty, .planned 1, sampleTables .ready 1⟩,
    ⟨sampleTables .ready 1, .moved 1 .active, sampleTables .active 2⟩,
    ⟨sampleTables .active 2, .moved 1 .outputCommitted, sampleTables .outputCommitted 3⟩,
    ⟨sampleTables .outputCommitted 3, .moved 1 .selfReviewComplete,
      sampleTables .selfReviewComplete 4⟩,
    ⟨sampleTables .selfReviewComplete 4, .moved 1 .aiProcessing, sampleTables .aiProcessing 5⟩]

theorem sample_run :
    Run LedgerStep Tables.empty sampleHistory (sampleTables .aiProcessing 5) := by
  have hplan : LedgerStep Tables.empty (.planned 1) (sampleTables .ready 1) :=
    @LedgerStep.planned Tables.empty (sampleRow .ready 1) rfl (fun _ h => absurd h List.not_mem_nil)
  exact ((((Run.refl.snoc hplan).snoc (sample_moves rfl)).snoc (sample_moves rfl)).snoc
    (sample_moves rfl)).snoc (sample_moves rfl)

theorem coverage_forward_iff_sample :
    ¬Counted (taskActivities (sampleTables .aiProcessing 5) 1) ∧
      ¬Forward sampleHistory (sampleTables .aiProcessing 5) 1 := by
  have hcounted : ¬Counted (taskActivities (sampleTables .aiProcessing 5) 1) := by
    intro h
    obtain ⟨other, hother, hlisted⟩ := h.1 ⟨sampleRow .aiProcessing 5, by decide, rfl⟩
    have hrow : other = sampleRow .aiProcessing 5 := List.mem_singleton.mp hother
    rw [hrow] at hlisted
    revert hlisted
    decide
  exact ⟨hcounted, fun h => hcounted ((coverage_forward_iff sample_run 1).1.mp h)⟩

/-- A started activity that waits for its review: its task is back at `pending`. -/
theorem coverage_falls_back :
    Run LedgerStep Tables.empty sampleHistory (sampleTables .aiProcessing 5) ∧
      coverageStatus (facts (sampleTables .aiProcessing 5) 1) = .pending ∧
      ¬Forward sampleHistory (sampleTables .aiProcessing 5) 1 := by
  have hpending : coverageStatus (facts (sampleTables .aiProcessing 5) 1) = .pending := by decide
  refine ⟨sample_run, hpending, fun h => ?_⟩
  refine h.1 (sampleRow .aiProcessing 5) (by decide) ?_ ?_ hpending
  · exact ⟨_, List.mem_cons_of_mem _ (List.mem_cons_self ..), rfl⟩
  · rintro ⟨e, he, hlabel⟩
    simp only [sampleHistory, List.mem_cons, List.not_mem_nil, or_false] at he
    rcases he with rfl | rfl | rfl | rfl | rfl <;> cases hlabel

end TamForge.Coverage
