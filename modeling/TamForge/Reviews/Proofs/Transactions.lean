import TamForge.Reviews.Service

/-!
# What one transaction of the review service does

One lemma per transaction: when it commits, which rows it has read, and the
database it leaves.
-/

namespace TamForge.Reviews

open Jobs Learning Models ProofSupport Today

variable {db db' : Db} {ownerId activityId : Nat} {activity : ActivityInstance} {loaded : Loaded}
  {decision : TransitionDecision} {target : ActivityState} {now : Instant}

/-! ## Activities and the rows joined to them -/

theorem activityKey_decided (activity : ActivityInstance) :
    activityKey (decided decision activity) = activityKey activity := rfl

theorem activity?_updateActivity_self
    (h : db.activity? ownerId activityId = some activity) :
    (db.updateActivity activity decision).activity? ownerId activityId =
      some (decided decision activity) := by
  have hkey : activityKey activity = (ownerId, activityId) := Table.key_of_lookup h
  unfold Db.activity? Db.updateActivity at *
  dsimp only
  rw [hkey, Table.lookup_modify_self activityKey_decided, h]
  rfl

theorem activity?_updateActivity_ne (hne : (ownerId, activityId) ≠ activityKey activity) :
    (db.updateActivity activity decision).activity? ownerId activityId =
      db.activity? ownerId activityId :=
  Table.lookup_modify_ne activityKey_decided hne

def Loaded.setActivity (loaded : Loaded) (activity : ActivityInstance) : Loaded :=
  { loaded with activity := activity }

theorem join_setActivity {other : ActivityInstance} (hown : other.ownerId = activity.ownerId)
    (hday : other.studyDayId = activity.studyDayId)
    (htask : other.taskDefinitionId = activity.taskDefinitionId) (rev : SelfReview) :
    db.join other rev = (db.join activity rev).map (·.setActivity other) := by
  simp only [Db.join, hown, hday, htask, Option.bind_eq_bind, Option.map_bind,
    Function.comp_def, Option.pure_def, Option.map_some]
  rfl

theorem join_activity {rev : SelfReview} (h : db.join activity rev = some loaded) :
    loaded.activity = activity := by
  simp only [Db.join, Option.bind_eq_bind, Option.bind_eq_some_iff, Option.pure_def,
    Option.some.injEq] at h
  obtain ⟨_, _, _, _, _, _, rfl⟩ := h
  rfl

theorem load_activity (h : db.load ownerId activityId = some loaded) :
    db.activity? ownerId activityId = some loaded.activity := by
  simp only [Db.load, Option.bind_eq_bind, Option.bind_eq_some_iff] at h
  obtain ⟨activity, hact, hlast⟩ := h
  obtain ⟨rev, -, hjoin⟩ := List.mem_filterMap.mp (Table.mem_of_latest hlast)
  rw [join_activity hjoin]
  exact hact

theorem load_key (h : db.load ownerId activityId = some loaded) :
    loaded.activity.ownerId = ownerId ∧ loaded.activity.id = activityId := by
  have hkey : activityKey loaded.activity = (ownerId, activityId) :=
    Table.key_of_lookup (load_activity h)
  exact Prod.mk.inj hkey

/-- The rows that `_load` joins to an activity. -/
def Db.candidates (db : Db) (ownerId activityId : Nat) (activity : ActivityInstance) :
    List Loaded :=
  (db.selfReviews.filter fun review =>
    review.ownerId = ownerId ∧ review.activityInstanceId = activityId).filterMap (db.join activity)

theorem load_eq :
    db.load ownerId activityId = (db.activity? ownerId activityId).bind fun activity =>
      Table.latest (fun loaded : Loaded => loaded.selfReview.id)
        (db.candidates ownerId activityId activity) := rfl

theorem candidates_decided (activity : ActivityInstance) :
    db.candidates ownerId activityId (decided decision activity) =
      (db.candidates ownerId activityId activity).map
        (·.setActivity (decided decision activity)) := by
  unfold Db.candidates
  rw [List.map_filterMap]
  congr 1
  funext review
  have hown : (decided decision activity).ownerId = activity.ownerId := rfl
  exact join_setActivity hown rfl rfl review

theorem load_updateActivity_self (h : db.load ownerId activityId = some loaded) :
    (db.updateActivity loaded.activity decision).load ownerId activityId =
      some (loaded.setActivity (decided decision loaded.activity)) := by
  have hact := load_activity h
  rw [load_eq, hact, Option.bind_some] at h
  rw [load_eq, activity?_updateActivity_self hact, Option.bind_some]
  have hcandidates : (db.updateActivity loaded.activity decision).candidates ownerId activityId
      (decided decision loaded.activity) = (db.candidates ownerId activityId loaded.activity).map
        (·.setActivity (decided decision loaded.activity)) :=
    candidates_decided loaded.activity
  have hrank : ∀ row : Loaded,
      (row.setActivity (decided decision loaded.activity)).selfReview.id = row.selfReview.id :=
    fun _ => rfl
  rw [hcandidates, Table.latest_map hrank, h]
  rfl

theorem load_updateActivity_ne (hne : (ownerId, activityId) ≠ activityKey activity) :
    (db.updateActivity activity decision).load ownerId activityId =
      db.load ownerId activityId := by
  rw [load_eq, load_eq, activity?_updateActivity_ne hne]
  rfl

/-! ## Moving an activity -/

theorem advance_ok {res : Loaded} (h : advance db loaded target = .ok (res, db')) :
    (loaded.activity.state, target) ∈ transitions ∧
      ∃ decision, decision.state = target ∧
        res = loaded.setActivity (decided decision loaded.activity) ∧
        db' = db.updateActivity loaded.activity decision := by
  simp only [advance, bind_ok_iff] at h
  obtain ⟨decision, hmove, _, _, h⟩ := h
  cases h
  unfold move at hmove
  cases htrans : transition loaded.activity.state target loaded.activity.optimisticVersion
      loaded.activity.optimisticVersion loaded.day.dayType loaded.day.status with
  | error error => simp [htrans, Except.mapError] at hmove
  | ok accepted =>
    have hsame : accepted = decision := by simpa [htrans, Except.mapError] using hmove
    obtain ⟨hok, hdec, -⟩ := transition_ok htrans
    refine ⟨hok, decision, ?_, rfl, rfl⟩
    rw [← hsame, hdec]

theorem map_snd_advance_ok (h : Prod.snd <$> advance db loaded target = .ok db') :
    ∃ decision, decision.state = target ∧ db' = db.updateActivity loaded.activity decision := by
  cases hadvance : advance db loaded target with
  | error error => simp [hadvance] at h
  | ok pair =>
    have hsame : pair.2 = db' := by simpa [hadvance] using h
    obtain ⟨-, decision, htgt, -, hdb⟩ := advance_ok hadvance
    exact ⟨decision, htgt, by rw [← hsame, hdb]⟩

variable {state : ProcessingState}

theorem setStatus_ok {category : Option Notifications.ErrorCategory}
    (h : setStatus db now ownerId activityId state category = .ok db') :
    ∃ statuses, db' = { db with statuses := statuses } ∧
      ∀ status ∈ statuses, status ∈ db.statuses ∨ StatusInv now status := by
  unfold setStatus at h
  split at h
  · simp only [bind_ok_iff, mapError_ok_iff] at h
    obtain ⟨_, hval, h⟩ := h
    refine ⟨_, (Except.ok.inj h).symm, ?_⟩
    intro status hst
    rcases List.mem_append.mp hst with hold | hnew
    · exact Or.inl hold
    · rw [List.mem_singleton.mp hnew]
      exact Or.inr ⟨hval, le_refl now⟩
  · simp only [bind_ok_iff, mapError_ok_iff] at h
    obtain ⟨_, _, _, hval, h⟩ := h
    refine ⟨_, (Except.ok.inj h).symm, ?_⟩
    intro status hst
    obtain ⟨old, hold, hrow⟩ := List.mem_map.mp hst
    split at hrow
    · rw [← hrow]
      exact Or.inr ⟨hval, le_refl now⟩
    · rw [← hrow]
      exact Or.inl hold

theorem setStatus_accepts {clock : Instant} (hst : state ≠ .needsAttention)
    (hsts : ∀ status ∈ db.statuses, StatusInv clock status) (hclk : clock ≤ now)
    (ownerId activityId : Nat) :
    ∃ db', setStatus db now ownerId activityId state none = .ok db' := by
  unfold setStatus
  split
  · refine ⟨_, bind_ok_iff.mpr ⟨(), mapError_ok_iff.mpr ?_, rfl⟩⟩
    simp [validateProcessingStatus, raiseFirst_eq_ok, hst]
  · rename_i row hrow
    obtain ⟨hval, hupdated⟩ := hsts row (Table.mem_of_lookup hrow)
    simp only [validateProcessingStatus, raiseFirst_eq_ok, List.forall_mem_cons] at hval
    obtain ⟨-, hcrt, -, herrs, -⟩ := hval
    have hnow : row.updatedAt ≤ now := hupdated.trans hclk
    have hmono : row.createdAt ≤ row.updatedAt := by simpa using hcrt
    refine ⟨_, bind_ok_iff.mpr ⟨(), mapError_ok_iff.mpr ?_,
      bind_ok_iff.mpr ⟨(), mapError_ok_iff.mpr ?_, rfl⟩⟩⟩
    · simp only [validateProcessingChange, raiseFirst_eq_ok, List.forall_mem_cons]
      refine ⟨?_, by simpa using hnow, by simp⟩
      by_cases hsame : row.state = state
      · have hclean : row.lastErrorCategory = none ∧ row.lastErrorDetails = none := by
          simpa [hsame, hst] using herrs
        simp [hclean]
      · simp [hsame]
    · have hnotOlder : row.createdAt ≤ now := hmono.trans hnow
      simp [validateProcessingStatus, raiseFirst_eq_ok, hst, hnotOlder]

/-! ## The transactions -/

/-- What the first transaction of `_request` leaves when it goes on. -/
structure Began (db : Db) (now : Instant) (ownerId activityId : Nat) (loaded : Loaded)
    (db' : Db) : Prop where
  load : db.load ownerId activityId = some loaded
  unreviewed : db.review? ownerId activityId = none
  effect : ∃ moved statuses, db' = { moved with statuses := statuses } ∧
    (∀ status ∈ statuses, status ∈ db.statuses ∨ StatusInv now status) ∧
    ((loaded.activity.state = .aiProcessing ∧ moved = db) ∨
      (loaded.activity.state = .selfReviewComplete ∧ ∃ decision, decision.state = .aiProcessing ∧
        moved = db.updateActivity loaded.activity decision))

variable {strict : Bool} {found : Option Loaded}

theorem declined_ok {error : ReviewError} (h : declined db strict error = .ok (found, db')) :
    found = none ∧ strict = false ∧ db' = db := by
  cases strict with
  | true => cases h
  | false =>
    cases h
    exact ⟨rfl, rfl, rfl⟩

theorem beginRequest_ok (h : beginRequest db now ownerId activityId strict = .ok (found, db')) :
    (found = none ∧ strict = false ∧ db' = db) ∨
      ∃ loaded, found = some loaded ∧ Began db now ownerId activityId loaded db' := by
  unfold beginRequest at h
  split at h
  · exact Or.inl (declined_ok h)
  · rename_i loaded hload
    split at h
    · exact Or.inl (declined_ok h)
    · rename_i hrev
      split at h
      · exact Or.inl (declined_ok h)
      · rename_i hstate
        split at h
        · rename_i hpend
          cases h
          exact Or.inl ⟨rfl, hpend.2, rfl⟩
        · refine Or.inr ?_
          have hunrev : db.review? ownerId activityId = none := by
            simpa using hrev
          split at h
          · rename_i hcompl
            simp only [bind_ok_iff] at h
            obtain ⟨moved, hmov, after, hst, h⟩ := h
            obtain ⟨statuses, rfl, hval⟩ := setStatus_ok hst
            cases h
            obtain ⟨decision, htgt, rfl⟩ := map_snd_advance_ok hmov
            exact ⟨loaded, rfl, hload, hunrev, _, statuses, rfl, hval,
              Or.inr ⟨hcompl, decision, htgt, rfl⟩⟩
          · rename_i ho
            simp only [bind_ok_iff] at h
            obtain ⟨moved, hmov, after, hst, h⟩ := h
            obtain ⟨statuses, rfl, hval⟩ := setStatus_ok hst
            cases h
            cases hmov
            refine ⟨loaded, rfl, hload, hunrev, db, statuses, rfl, hval, Or.inl ⟨?_, rfl⟩⟩
            by_contra hne
            exact hstate ⟨ho, hne⟩

/-- What the last transaction of `process` leaves. -/
structure Stored (db : Db) (now : Instant) (ownerId activityId : Nat) (draft : ReviewDraft)
    (review : ActivityReview) (db' : Db) : Prop where
  key : reviewKey review = (ownerId, activityId)
  evidence : review.evidenceStatus = draft.evidenceStatus ∧
    review.evidenceEventIds = draft.evidenceEventIds
  unreviewed : db.review? ownerId activityId = none
  effect : ∃ loaded moved statuses events n, db.load ownerId activityId = some loaded ∧
    review.attemptId = loaded.attempt.id ∧
    db' = { moved with
      reviews := db.reviews ++ [review], nextReviewId := db.nextReviewId + 1,
      statuses := statuses, activityEvents := events,
      queue := { db.queue with nextEventId := n } } ∧
    (∀ status ∈ statuses, status ∈ db.statuses ∨ StatusInv now status) ∧
    (moved = db ∨ ∃ decision, decision.state = .feedbackReady ∧
      moved = db.updateActivity loaded.activity decision)

theorem insertReview_ok {rev : ActivityReview} (h : insertReview db rev = .ok db') :
    db.review? rev.ownerId rev.activityInstanceId = none ∧
      db' = { db with reviews := db.reviews ++ [rev], nextReviewId := db.nextReviewId + 1 } := by
  obtain ⟨_, hchk, h⟩ := bind_ok_iff.mp h
  rw [raiseFirst_eq_ok, List.forall_mem_cons, List.forall_mem_cons] at hchk
  obtain ⟨-, hfree, -⟩ := hchk
  exact ⟨by simpa using hfree, (Except.ok.inj h).symm⟩

theorem updateActivity_updateActivity {other : TransitionDecision} :
    (db.updateActivity activity decision).updateActivity (decided decision activity) other =
      db.updateActivity activity other := by
  have hrows : Table.modify activityKey (Table.modify activityKey db.activities
      (activityKey activity) (decided decision)) (activityKey activity) (decided other) =
        Table.modify activityKey db.activities (activityKey activity) (decided other) := by
    rw [Table.modify, Table.modify, Table.modify, List.map_map]
    apply List.map_congr_left
    intro row _
    rw [Function.comp_apply]
    by_cases hrow : activityKey row = activityKey activity
    · rw [if_pos hrow, if_pos hrow, if_pos (by rw [activityKey_decided, hrow])]
      rfl
    · rw [if_neg hrow, if_neg hrow]
  unfold Db.updateActivity
  rw [activityKey_decided, hrows]

theorem settle_ok (h : settle db loaded = .ok db') :
    db' = db ∨ ∃ decision, decision.state = .feedbackReady ∧
      db' = db.updateActivity loaded.activity decision := by
  unfold settle at h
  split at h
  · simp only [bind_ok_iff] at h
    obtain ⟨⟨res, moved⟩, hadvance, h⟩ := h
    obtain ⟨-, first, -, rfl, rfl⟩ := advance_ok hadvance
    obtain ⟨second, htgt, rfl⟩ := map_snd_advance_ok h
    exact Or.inr ⟨second, htgt, updateActivity_updateActivity⟩
  · exact Or.inr (map_snd_advance_ok h)
  · exact Or.inl (Except.ok.inj h).symm

theorem announceFeedback_ok {reviewId : Nat}
    (h : announceFeedback db now ownerId activityId reviewId = .ok db') :
    ∃ evs n, db' = { db with
      activityEvents := evs
      queue := { db.queue with nextEventId := n } } := by
  simp only [announceFeedback, bind_ok_iff] at h
  obtain ⟨_, -, h⟩ := h
  exact ⟨_, _, (Except.ok.inj h).symm⟩

theorem storeReview_ok {draft : ReviewDraft} {rev : ActivityReview}
    (h : storeReview db now ownerId activityId draft = .ok (rev, db')) :
    Stored db now ownerId activityId draft rev db' := by
  unfold storeReview at h
  split at h
  · cases h
  · rename_i loaded hload
    simp only [bind_ok_iff] at h
    obtain ⟨inserted, hins, moved, hmov, stamped, hst, announced, hannounce, h⟩ := h
    obtain ⟨hfree, rfl⟩ := insertReview_ok hins
    obtain ⟨statuses, rfl, hval⟩ := setStatus_ok hst
    obtain ⟨evs, n, rfl⟩ := announceFeedback_ok hannounce
    cases h
    refine ⟨rfl, ⟨rfl, rfl⟩, hfree, ?_⟩
    rcases settle_ok hmov with rfl | ⟨decision, htgt, rfl⟩
    · exact ⟨loaded, db, statuses, evs, n, hload, rfl, rfl, hval, Or.inl rfl⟩
    · exact ⟨loaded, db.updateActivity loaded.activity decision, statuses, evs, n, hload, rfl,
        rfl, hval, Or.inr ⟨decision, htgt, rfl⟩⟩

end TamForge.Reviews
