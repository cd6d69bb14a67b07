import Mathlib.Data.List.TakeWhile
import TamForge.Today.Proofs.Closing

/-!
# What a closed day hands off

The close gate lets required work rest in more states than the handoff counts as
settled.  The states in between are those of work that waits for its
correction, and the next action is read off the scans of `_next_action` in
order.
-/

namespace TamForge.Today

open Learning Models ProofSupport
open Learning.ActivityService (ActivityRow StudyDayRow)

def owesCorrection (state : ActivityState) : Bool :=
  state == .correctionDue || state == .needsWork

def finishAction (item : HandoffActivityInput) : String :=
  clip ("Finish " ++ item.stableId ++ ": " ++ item.objective)

def correctionAction (item : HandoffActivityInput) : String :=
  clip ("Complete the due correction for " ++ item.stableId ++ ".")

theorem head?_rstrip {text : String} {first : Char} (hfst : text.toList.head? = some first)
    (hspace : isSpace first = false) : (rstrip text).toList.head? = some first := by
  obtain ⟨rest, hrest⟩ : ∃ rest, text.toList = first :: rest := by
    cases htext : text.toList with
    | nil => simp [htext] at hfst
    | cons other rest => exact ⟨rest, by simp_all⟩
  have hdrop : ∀ before : List Char,
      (before ++ [first]).dropWhile isSpace = before.dropWhile isSpace ++ [first] := by
    intro before
    induction before with
    | nil => simp [hspace]
    | cons other before ih =>
      by_cases ho : isSpace other = true
      · simp [ho, ih]
      · simp [ho]
  rw [rstrip, hrest, List.reverse_cons, hdrop]
  simp

theorem head?_clip {text : String} {first : Char} (hfst : text.toList.head? = some first)
    (hspace : isSpace first = false) : (clip text).toList.head? = some first := by
  unfold clip
  split
  · exact hfst
  · have htake : (String.ofList (text.toList.take (nextActionMaxChars - 1))).toList.head? =
        some first := by
      rw [String.toList_ofList, List.head?_take, if_neg (by decide)]
      exact hfst
    rw [String.toList_append, List.head?_append, head?_rstrip htake hspace]
    rfl

/-! ## The scans in order -/

section NextAction

variable {activities : List HandoffActivityInput} {corrections : List Nat}
  {item : HandoffActivityInput}

/-- Nothing waits for its self-review. -/
def NoneCommitted (activities : List HandoffActivityInput) : Prop :=
  ∀ item ∈ activities, item.state ≠ .outputCommitted

def requiredUnfinished (item : HandoffActivityInput) : Bool :=
  item.required && outcomeFor item.state == .unfinished

theorem find?_committed (h : NoneCommitted activities) :
    activities.find? (fun item => item.state == .outputCommitted) = none := by
  rw [List.find?_eq_none]
  intro item hitem
  simpa using h item hitem

/-- The first required block that is unfinished is what comes after the
self-reviews. -/
theorem nextAction_required (hnone : NoneCommitted activities)
    (hfind : activities.find? requiredUnfinished = some item) :
    nextAction activities corrections = finishAction item := by
  unfold requiredUnfinished at hfind
  simp [nextAction, find?_committed hnone, hfind, finishAction]

theorem nextAction_due (hnone : NoneCommitted activities)
    (hreqd : activities.find? requiredUnfinished = none)
    (hfind : activities.find? (fun item => owesCorrection item.state) = some item) :
    nextAction activities corrections = correctionAction item := by
  unfold requiredUnfinished at hreqd
  unfold owesCorrection at hfind
  simp [nextAction, find?_committed hnone, hreqd, hfind, correctionAction]

theorem getD_of {P : String → Prop} {first : Option String} {default : String}
    (hfst : ∀ text, first = some text → P text) (hdefault : P default) :
    P (first.getD default) := by
  cases first with
  | none => exact hdefault
  | some text => exact hfst text rfl

theorem getD_orElse_of {P : String → Prop} {first later : Option String} {default : String}
    (hfst : ∀ text, first = some text → P text) (hlat : P (later.getD default)) :
    P ((first <|> later).getD default) := by
  cases first with
  | none => exact hlat
  | some text => exact hfst text rfl

theorem head?_scan {found : Option HandoffActivityInput} {action : HandoffActivityInput → String}
    (first : Char) (hact : ∀ item, (action item).toList.head? = some first)
    (hspace : isSpace first = false) (hne : first ≠ 'F') :
    ∀ text, (found.map fun item => clip (action item)) = some text →
      text.toList.head? ≠ some 'F' := by
  intro text htext hhead
  obtain ⟨item, -, rfl⟩ := Option.map_eq_some_iff.mp htext
  rw [head?_clip (hact item) hspace] at hhead
  exact hne (Option.some.inj hhead)

/-- Only a required block that is unfinished makes an action with the first
letter of `Finish`. -/
theorem head?_nextAction (hfree : activities.find? requiredUnfinished = none) :
    (nextAction activities corrections).toList.head? ≠ some 'F' := by
  unfold requiredUnfinished at hfree
  unfold nextAction
  simp only [hfree]
  apply getD_orElse_of (P := fun text => text.toList.head? ≠ some 'F')
  · exact head?_scan 'S' (by simp) (by decide) (by decide)
  apply getD_orElse_of (P := fun text => text.toList.head? ≠ some 'F')
  · simp
  apply getD_orElse_of (P := fun text => text.toList.head? ≠ some 'F')
  · exact head?_scan 'C' (by simp) (by decide) (by decide)
  apply getD_orElse_of (P := fun text => text.toList.head? ≠ some 'F')
  · intro text htext
    obtain ⟨id, -, rfl⟩ := Option.map_eq_some_iff.mp htext
    simp
  apply getD_of (P := fun text => text.toList.head? ≠ some 'F')
  · exact head?_scan 'P' (by simp) (by decide) (by decide)
  · simp

/-- Asking to finish a required block of the list is the work of a required block
that is unfinished. -/
theorem exists_of_finishAction
    (h : nextAction activities corrections = finishAction item) :
    ∃ other ∈ activities, requiredUnfinished other = true := by
  by_contra hfree
  have hnone : activities.find? requiredUnfinished = none := by
    rw [List.find?_eq_none]
    intro other ho hf
    exact hfree ⟨other, ho, hf⟩
  have hhead : (nextAction activities corrections).toList.head? = some 'F' := by
    rw [h]
    exact head?_clip (by simp) (by decide)
  exact head?_nextAction hnone hhead

/-- A block that waits for its correction while every other required block is
finished decides the next action: a required one is asked to be finished, and
otherwise the first block of its kind is asked for its correction. -/
theorem nextAction_owed (hnone : NoneCommitted activities) (hmem : item ∈ activities)
    (howes : owesCorrection item.state = true)
    (hos : ∀ other ∈ activities, requiredUnfinished other = true → other = item) :
    (item.required = true → nextAction activities corrections = finishAction item) ∧
      (item.required = false → ∃ first ∈ activities, owesCorrection first.state = true ∧
        nextAction activities corrections = correctionAction first) := by
  have hunfin : outcomeFor item.state = .unfinished := by
    cases hst : item.state <;> simp_all [owesCorrection] <;> decide
  constructor
  · intro hreqd
    have hf : requiredUnfinished item = true := by
      simp [requiredUnfinished, hreqd, hunfin]
    cases hfind : activities.find? requiredUnfinished with
    | none => exact absurd hf (List.find?_eq_none.mp hfind item hmem)
    | some other =>
      obtain rfl := hos other (List.mem_of_find?_eq_some hfind) (List.find?_some hfind)
      exact nextAction_required hnone hfind
  · intro huseful
    have hfree : activities.find? requiredUnfinished = none := by
      rw [List.find?_eq_none]
      intro other ho hf
      obtain rfl := hos other ho hf
      simp [requiredUnfinished, huseful] at hf
    cases hfind : activities.find? (fun item => owesCorrection item.state) with
    | none => exact absurd howes (List.find?_eq_none.mp hfind item hmem)
    | some first =>
      exact ⟨first, List.mem_of_find?_eq_some hfind, by simpa using List.find?_some hfind,
        nextAction_due hnone hfree hfind⟩

end NextAction

/-! ## The gate and the handoff -/

section Gate

variable {env : CloseEnv} {db after : TodayDb} {learning : ActivityService.Db}
  {day : StudyDayRow} {command : DailyCloseCommand} {response : DailyCloseResponse}
  {handoff : DailyHandoff} {item : HandoffActivityInput} {state : ActivityState}
  {row : ActivityRow × TamForge.Roadmaps.TaskDefinitionRow} {ownerId dayId : Nat}
  {localDate : Date}

/-- What may rest at a close is settled for the handoff too, unless it waits for
its correction. -/
theorem outcomeFor_settled (h : state ∈ settledStates) :
    outcomeFor state = .unfinished ↔ owesCorrection state = true := by
  revert h
  cases state <;> decide

theorem activityGap_settled (h : item.state ∈ settledStates) :
    activityGap item = none ↔
      ¬ (outcomeFor item.state = .deferred ∨ owesCorrection item.state = true) := by
  rw [← outcomeFor_settled h]
  unfold activityGap
  cases outcomeFor item.state <;> simp

theorem mem_handoffRows (h : row ∈ handoffRows learning ownerId dayId) :
    row.1 ∈ activitiesOfDay learning ownerId dayId ∧
      definitionOf? learning row.1 = some row.2 := by
  unfold handoffRows at h
  rw [List.mem_insertionSort, List.mem_filterMap] at h
  obtain ⟨act, hact, hrow⟩ := h
  obtain ⟨defn, hdefn, rfl⟩ := Option.map_eq_some_iff.mp hrow
  exact ⟨List.mem_of_mem_filter hact, hdefn⟩

theorem settled_of_gate (hgate : requiredBlocker learning ownerId dayId = false)
    (hrow : row ∈ handoffRows learning ownerId dayId) (hreqd : row.2.required = true)
    (hblk : row.2.block ≠ .dailyClose) : row.1.state ∈ settledStates := by
  obtain ⟨hact, hdefn⟩ := mem_handoffRows hrow
  have hopen := List.any_eq_false.mp hgate row.1 hact
  simpa [hdefn, hreqd, hblk] using hopen

theorem validateClose_gate (h : validateClose env learning day command = .ok ())
    (hnone : command.unfinishedClassification = .none) :
    requiredBlocker learning day.ownerId day.id = false := by
  simp only [validateClose, bind_ok_iff] at h
  obtain ⟨_, -, _, -, _, -, hgrd⟩ := h
  have hgate := raiseFirst_eq_ok.mp hgrd _ (List.mem_cons_of_mem _ (List.mem_cons_self ..))
  simpa [hnone] using hgate

theorem strip_of_none (hnone : command.unfinishedClassification = .none) :
    strip (command.unfinishedRequirement.getD "") = "" := by
  have hblank : ∀ text : String, isBlank text = true → strip text = "" := by
    intro text htext
    have hdrop : text.toList.dropWhile isSpace = [] := by
      rw [List.dropWhile_eq_nil_iff]
      simpa [isBlank] using htext
    simp [strip, rstrip, hdrop]
  have hcoh := command.coherent_requirement
  rw [hnone] at hcoh
  cases hrequirement : command.unfinishedRequirement with
  | none => exact hblank _ (by decide)
  | some text => exact hblank text (by simpa [hrequirement] using hcoh.symm)

structure TellsOf (env : CloseEnv) (learning : ActivityService.Db) (ownerId dayId : Nat)
    (handoff : DailyHandoff) : Prop where
  blocks : handoff.blocks =
    ((handoffRows learning ownerId dayId).map (handoffInput env learning)).map handoffBlock
  gaps : ∃ corrections : List Nat, handoff.gaps =
    ((handoffRows learning ownerId dayId).map (handoffInput env learning)).filterMap activityGap ++
      corrections.map fun id => "correction " ++ toString id ++ " still due"
  unfinished : ∀ row ∈ handoffRows learning ownerId dayId, row.2.required = true →
    row.2.block ≠ .dailyClose →
      ((handoffBlock (handoffInput env learning row)).outcome = .unfinished ↔
        owesCorrection row.1.state = true)
  gap : ∀ row ∈ handoffRows learning ownerId dayId, row.2.required = true →
    row.2.block ≠ .dailyClose →
      (activityGap (handoffInput env learning row) = none ↔
        ¬ ((handoffBlock (handoffInput env learning row)).outcome = .deferred ∨
          owesCorrection row.1.state = true))
  finish : ∀ row ∈ handoffRows learning ownerId dayId,
    handoff.nextAction = finishAction (handoffInput env learning row) →
      ∃ other ∈ handoffRows learning ownerId dayId, other.2.required = true ∧
        (owesCorrection other.1.state = true ∨ other.2.block = .dailyClose ∧
          (handoffBlock (handoffInput env learning other)).outcome = .unfinished)

theorem tellsOf_handoff (hgate : requiredBlocker learning day.ownerId day.id = false)
    (hnone : command.unfinishedClassification = .none) (days : Serial StudyDayRow)
    (close : DailyClose) (id : Nat) :
    TellsOf env learning day.ownerId day.id
      (handoffOf env { learning with days := days } day close command id) := by
  constructor
  · rfl
  · refine ⟨pendingCorrections env day, ?_⟩
    simp only [handoffOf, buildHandoff, strip_of_none hnone, if_pos, List.append_nil]
    rfl
  · intro row hrow hreqd hblk
    exact outcomeFor_settled (settled_of_gate hgate hrow hreqd hblk)
  · intro row hrow hreqd hblk
    have hsetl : (handoffInput env learning row).state ∈ settledStates :=
      settled_of_gate hgate hrow hreqd hblk
    exact activityGap_settled hsetl
  · intro row hrow hact
    obtain ⟨input, hinput, hf⟩ := exists_of_finishAction hact
    obtain ⟨other, ho, rfl⟩ := List.mem_map.mp hinput
    simp only [requiredUnfinished, Bool.and_eq_true, beq_iff_eq] at hf
    obtain ⟨hreqd, hunfin⟩ := hf
    refine ⟨other, ho, hreqd, ?_⟩
    by_cases hblk : other.2.block = .dailyClose
    · exact Or.inr ⟨hblk, hunfin⟩
    · left
      exact (outcomeFor_settled (settled_of_gate hgate ho hreqd hblk)).mp hunfin

theorem firstClose_tells (h : firstClose env db day command = .ok (response, after))
    (hnone : command.unfinishedClassification = .none) :
    ∃ handoff ∈ after.handoffs.rows, handoff.dailyCloseId = response.dailyCloseId ∧
      response.studyDayId = day.id ∧ TellsOf env db.learning day.ownerId day.id handoff := by
  have hgate : requiredBlocker db.learning day.ownerId day.id = false := by
    have hval := h
    simp only [firstClose, bind_ok_iff] at hval
    obtain ⟨_, hval, -⟩ := hval
    exact validateClose_gate hval hnone
  obtain ⟨closed, close, handoff, hcloses, rfl⟩ := firstClose_ok h
  obtain ⟨hid, hown, -, -, -⟩ := hcloses.same_day
  obtain ⟨closedAt, hcloseEq⟩ := hcloses.close_eq
  refine ⟨handoff, ?_, ?_, ?_, ?_⟩
  · rw [hcloses.after_eq]
    simp [Serial.insert]
  · rw [hcloses.handoff_eq]
    rfl
  · rw [hcloseEq]
    exact hid
  · rw [hcloses.handoff_eq, hcloses.after_eq, ← hown, ← hid]
    rw [← hown, ← hid] at hgate
    exact tellsOf_handoff hgate hnone _ close _

end Gate

/-- After a first close that leaves nothing unfinished the handoff calls a
required block other than the close itself unfinished exactly while it waits
for its correction, has a gap for it exactly then or when it is deferred, and
asks to finish something only with such a block or an unfinished close block.
In every list, a block that waits for its correction while nothing waits for a
self-review and every other required block is finished decides the next action:
the due correction, or to finish the block where it is required. -/
theorem close_day_handoff_agrees :
    (∀ env db after ownerId localDate command response,
      closeDay env db ownerId localDate command = .ok (response, after) →
      response.replayed = false → command.unfinishedClassification = .none →
      ∃ handoff ∈ after.handoffs.rows, handoff.dailyCloseId = response.dailyCloseId ∧
        TellsOf env db.learning ownerId response.studyDayId handoff) ∧
    ∀ (activities : List HandoffActivityInput) (requirement : Option String)
      (corrections : List Nat), NoneCommitted activities → ∀ item ∈ activities,
      owesCorrection item.state = true →
      (∀ other ∈ activities, requiredUnfinished other = true → other = item) →
      (item.required = true →
        (buildHandoff activities requirement corrections).nextAction = finishAction item) ∧
      (item.required = false → ∃ first ∈ activities, owesCorrection first.state = true ∧
        (buildHandoff activities requirement corrections).nextAction =
          correctionAction first) := by
  constructor
  · intro env db after ownerId localDate command response hclose hfirst hnone
    obtain ⟨day, -, rfl, -, -, ⟨hreplayed, -⟩ | hdone⟩ := closeDay_ok hclose
    · rw [hreplayed] at hfirst
      cases hfirst
    · obtain ⟨handoff, hmem, hid, hday, htells⟩ := firstClose_tells hdone hnone
      rw [hday]
      exact ⟨handoff, hmem, hid, htells⟩
  · intro activities requirement corrections hnone item hmem howes hothers
    exact nextAction_owed hnone hmem howes hothers

/-! ## A day closed over a correction that is due -/

theorem closeDone_unique : [[1], [], [], []].all (distinctIds 64) = true := by decide

theorem closeDone_compact :
    ["One query without a hint.", "Grouped before filtering."].all compactNonblank = true := by
  decide

def sampleCloseDone : DailyCloseCommand where
  evidenceConfirmed := true
  evidenceManifest := {
    activityIds := [1], attemptIds := [], artifactIds := [], selfReviewIds := [],
    unique_ids := closeDone_unique }
  strongestOutput := "One query without a hint."
  repeatedMistake := "Grouped before filtering."
  unfinishedClassification := .none
  unfinishedRequirement := none
  correctionIds := []
  compact_nonblank := closeDone_compact
  evidence_confirmed := rfl
  corrections_unique := by decide
  coherent_requirement := by decide
  requirement_size := by decide

/-- The first required activity waits for its correction, the second is reviewed. -/
def sampleOwing : TodayDb :=
  { sampleToday with
    learning := { ActivityService.samplePlanned with
      activities := {
        rows := [{ ActivityService.sampleActivity 1 Nat.one_pos one_le_bigintMax with
            state := .correctionDue },
          { ActivityService.sampleActivity 2 Nat.two_pos two_le_bigintMax with
            state := .feedbackReady }],
        next := 3 } } }

def sampleOwingClosed : DailyCloseResponse × TodayDb :=
  (⟨1, 1, .closed, seconds 120, .none, false⟩,
    (closeDayTx sampleCloseEnv sampleOwing 1 739852 sampleCloseDone).2)

theorem closeDay_sampleOwing :
    closeDay sampleCloseEnv sampleOwing 1 739852 sampleCloseDone = .ok sampleOwingClosed :=
  closeDayTx_ok (by decide)

def sampleOwed : HandoffActivityInput where
  activityId := 1
  stableId := "w1-d1-sql"
  objective := "Write one query."
  state := .correctionDue
  required := true
  focusedSeconds := 0
  coached := false
  noteId := none

theorem close_day_handoff_agrees_sample :
    (∃ handoff ∈ sampleOwingClosed.2.handoffs.rows, handoff.dailyCloseId = 1 ∧
      TellsOf sampleCloseEnv sampleOwing.learning 1 1 handoff) ∧
    (buildHandoff [sampleOwed] none []).nextAction = finishAction sampleOwed :=
  ⟨close_day_handoff_agrees.1 _ _ _ _ _ _ _ closeDay_sampleOwing rfl rfl,
    (close_day_handoff_agrees.2 [sampleOwed] none [] (by simp [NoneCommitted, sampleOwed])
      sampleOwed (by simp) (by decide) (by simp)).1 rfl⟩

/-- The close finds no blocker, yet its handoff calls the required block
unfinished, lists it as a gap and asks to finish it, and not to complete the
correction that it waits for. -/
theorem close_day_hands_off_unfinished :
    closeDay sampleCloseEnv sampleOwing 1 739852 sampleCloseDone = .ok sampleOwingClosed ∧
      sampleCloseDone.unfinishedClassification = .none ∧
      sampleOwingClosed.2.handoffs.rows.any (fun handoff =>
        handoff.blocks.any (fun block =>
          block.activityId == 1 && block.outcome == .unfinished) &&
        handoff.gaps.contains "w1-d1-sql (required) left correction_due" &&
        handoff.nextAction == "Finish w1-d1-sql: Write one query.") = true ∧
      (buildHandoff [sampleOwed] none []).nextAction ≠ correctionAction sampleOwed :=
  ⟨closeDay_sampleOwing, rfl, by decide +kernel, by decide +kernel⟩

end TamForge.Today
