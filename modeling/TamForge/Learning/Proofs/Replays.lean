import TamForge.Learning.Proofs.FocusedTime

/-!
# Replayed commands

A command that succeeded once is answered from its receipt, whatever happened
since.  Receipts are only ever appended, the receipt is read before any guard
that looks at the state, and the activity of a receipt can always be loaded
again.
-/

namespace TamForge.Learning.ActivityService

open Models ProofSupport

/-! ## What the handlers leave alone -/

/-- The work of a command touches neither receipts nor task definitions. -/
structure Frame (db after : Db) : Prop where
  receipts : after.receipts = db.receipts
  definitions : after.definitions = db.definitions

/-- What holds between a store and the store after any one write to its rows.  A
link is only written for an attempt. -/
structure Writes (R : Db → Db → Prop) : Prop where
  refl : ∀ db, R db db
  trans : ∀ {db mid after}, R db mid → R mid after → R db after
  days : ∀ db days, R db { db with days := days }
  activities : ∀ db activities, R db { db with activities := activities }
  timers : ∀ db timers, R db { db with timers := timers }
  attempts : ∀ db attempts, R db { db with attempts := attempts }
  selfReviews : ∀ db selfReviews, R db { db with selfReviews := selfReviews }
  link : ∀ db link, (∀ id, (link id).attemptId ≠ none) → R db (db.insertLink link)

def Answers (scope : Scope) (response : Response) : Prop :=
  Payload.response? (.response response) scope = some response

variable {mid : Db} {store : ObjectStore}

section Handlers

variable {env : Env} {db after : Db} {ownerId expectedVersion : Nat} {key : String}
  {row : LockedActivity} {response : Response} {R : Db → Db → Prop}

namespace Writes

theorem flushDay {old new : StudyDayRow} (hR : Writes R) (h : db.flushDay old new = .ok after) :
    R db after := by
  obtain rfl := flushDay_ok h
  exact hR.days db _

theorem flushActivity {old new : ActivityRow} (hR : Writes R)
    (h : db.flushActivity old new = .ok after) : R db after := by
  obtain rfl := flushActivity_ok h
  exact hR.activities db _

theorem flushTimer {old new : ActivityTimerSession} (hR : Writes R)
    (h : db.flushTimer old new = .ok after) : R db after := by
  obtain rfl := flushTimer_ok h
  exact hR.timers db _

theorem insertTimer {activityId : Nat} {now : Instant} (hR : Writes R)
    (h : db.insertTimer ownerId activityId key (startTimer now) = .ok after) : R db after := by
  obtain ⟨-, rfl⟩ := insertTimer_ok h
  exact hR.timers db _

variable {attempt : AttemptRow}

theorem insertAttempt (hR : Writes R) (h : db.insertAttempt attempt = .ok after) : R db after := by
  obtain rfl := insertAttempt_ok h
  exact hR.attempts db _

variable {row' : LockedActivity} {sequence : Nat}

theorem applyTimerHeartbeat {timer timer' : ActivityTimerSession} {now : Instant} (hR : Writes R)
    (h : ActivityService.applyTimerHeartbeat db row timer sequence now = .ok (row', timer', after))
    : R db after := by
  simp only [ActivityService.applyTimerHeartbeat, bind_ok_iff] at h
  obtain ⟨_, -, _, hflush, hres⟩ := h
  cases hres
  exact hR.flushTimer hflush

theorem start (hR : Writes R)
    (h : ActivityService.start env db ownerId expectedVersion key row = .ok (response, after)) :
    R db after ∧ Answers .start response := by
  simp only [ActivityService.start, bind_ok_iff] at h
  obtain ⟨_, -, _, -, _, hday, _, hact, _, htmr, hres⟩ := h
  cases hres
  have hflushed := hR.trans (hR.flushDay hday) (hR.flushActivity hact)
  exact ⟨hR.trans hflushed (hR.insertTimer htmr), rfl⟩

theorem heartbeat (hR : Writes R)
    (h : ActivityService.heartbeat env db expectedVersion sequence row = .ok (response, after)) :
    R db after ∧ Answers .heartbeat response := by
  simp only [ActivityService.heartbeat, bind_ok_iff] at h
  obtain ⟨_, -, _, -, _, hbeat, _, hday, hres⟩ := h
  cases hres
  exact ⟨hR.trans (hR.applyTimerHeartbeat hbeat) (hR.flushDay hday), rfl⟩

theorem pause (hR : Writes R)
    (h : ActivityService.pause env db expectedVersion sequence row = .ok (response, after)) :
    R db after ∧ Answers .pause response := by
  simp only [ActivityService.pause, bind_ok_iff] at h
  obtain ⟨_, -, _, -, _, hbeat, _, hday, _, hact, _, htmr, hres⟩ := h
  cases hres
  have hcnt := hR.trans (hR.applyTimerHeartbeat hbeat) (hR.flushDay hday)
  have hflushed := hR.trans hcnt (hR.flushActivity hact)
  exact ⟨hR.trans hflushed (hR.flushTimer htmr), rfl⟩

theorem resume (hR : Writes R)
    (h : ActivityService.resume env db ownerId expectedVersion key row = .ok (response, after)) :
    R db after ∧ Answers .resume response := by
  simp only [ActivityService.resume, bind_ok_iff] at h
  obtain ⟨_, -, _, -, _, -, _, hact, _, htmr, hres⟩ := h
  cases hres
  exact ⟨hR.trans (hR.flushActivity hact) (hR.insertTimer htmr), rfl⟩

theorem endOpenTimer (hR : Writes R)
    (h : ActivityService.endOpenTimer env db row = .ok (row', after)) : R db after := by
  unfold ActivityService.endOpenTimer at h
  split at h
  · cases h
    exact hR.refl db
  · simp only [bind_ok_iff] at h
    obtain ⟨_, hbeat, _, hstop, hres⟩ := h
    cases hres
    exact hR.trans (hR.applyTimerHeartbeat hbeat) (hR.flushTimer hstop)

theorem classifyIncomplete {cls : Classification} {strongerEvidenceId : Option Nat}
    (hR : Writes R)
    (h : ActivityService.classifyIncomplete env db ownerId expectedVersion cls
      strongerEvidenceId row = .ok (response, after)) :
    R db after ∧ Answers .classifyIncomplete response := by
  simp only [ActivityService.classifyIncomplete, bind_ok_iff] at h
  obtain ⟨_, -, _, -, _, hend, _, hday, _, hact, hres⟩ := h
  cases hres
  have hclos := hR.trans (hR.endOpenTimer hend) (hR.flushDay hday)
  exact ⟨hR.trans hclos (hR.flushActivity hact), rfl⟩

theorem setSourceVisibility {hidden : Bool} (hR : Writes R)
    (h : ActivityService.setSourceVisibility env db expectedVersion hidden row =
      .ok (response, after)) : R db after ∧ Answers .sourceVisibility response := by
  simp only [ActivityService.setSourceVisibility, bind_ok_iff] at h
  obtain ⟨_, -, h⟩ := h
  split at h
  · simp only [bind_ok_iff] at h
    obtain ⟨_, hact, _, -, hres⟩ := h
    cases hres
    exact ⟨hR.flushActivity hact, rfl⟩
  · simp only [bind_ok_iff] at h
    obtain ⟨_, -, hres⟩ := h
    cases hres
    exact ⟨hR.refl db, rfl⟩

theorem linkArtifacts (hR : Writes R) (arts : List (ArtifactReference × Artifact)) (db : Db) :
    R db (ActivityService.linkArtifacts db attempt arts) := by
  unfold ActivityService.linkArtifacts
  induction arts generalizing db with
  | nil => exact hR.refl db
  | cons item rest ih =>
    rw [List.foldl_cons]
    refine hR.trans (hR.link db _ ?_) (ih _)
    intro id
    simp

theorem commitOutput {output : Json} {refs : List ArtifactReference} {parent : Option Nat}
    (hR : Writes R)
    (h : ActivityService.commitOutput env db ownerId expectedVersion sequence output refs parent
      row = .ok (response, after))
    : R db after ∧ Answers .commitOutput response := by
  simp only [ActivityService.commitOutput, bind_ok_iff] at h
  obtain ⟨_, -, _, -, _, -, _, -, _, -, _, -, _, -, _, hbeat, _, hday, _, hact, _, hstop,
    _, -, _, hins, hres⟩ := h
  cases hres
  have hcnt := hR.trans (hR.applyTimerHeartbeat hbeat) (hR.flushDay hday)
  have hflushed := hR.trans hcnt (hR.flushActivity hact)
  have hstopped := hR.trans hflushed (hR.flushTimer hstop)
  have hinserted := hR.trans hstopped (hR.insertAttempt hins)
  exact ⟨hR.trans hinserted (hR.linkArtifacts _ _), rfl⟩

theorem submitSelfReview {answers : SelfReviewAnswers} {selfScore : Nat} (hR : Writes R)
    (h : ActivityService.submitSelfReview env db ownerId expectedVersion answers selfScore row =
      .ok (response, after)) : R db after ∧ Answers .selfReview response := by
  simp only [ActivityService.submitSelfReview, bind_ok_iff] at h
  obtain ⟨_, -, h⟩ := h
  split at h
  · split at h
    · simp only [bind_ok_iff, Db.insertSelfReview] at h
      obtain ⟨_, hact, _, ⟨_, -, hins⟩, hres⟩ := h
      cases hins
      cases hres
      exact ⟨hR.trans (hR.flushActivity hact) (hR.selfReviews _ _), rfl⟩
    · cases h
  · cases h

end Writes

theorem Frame.refl (db : Db) : Frame db db :=
  ⟨rfl, rfl⟩

theorem Frame.trans (h : Frame db mid) (h' : Frame mid after) : Frame db after :=
  ⟨h'.receipts.trans h.receipts, h'.definitions.trans h.definitions⟩

theorem Frame.writes : Writes Frame where
  refl := Frame.refl
  trans := Frame.trans
  days := fun _ _ => ⟨rfl, rfl⟩
  activities := fun _ _ => ⟨rfl, rfl⟩
  timers := fun _ _ => ⟨rfl, rfl⟩
  attempts := fun _ _ => ⟨rfl, rfl⟩
  selfReviews := fun _ _ => ⟨rfl, rfl⟩
  link := fun _ _ _ => ⟨rfl, rfl⟩

theorem ensurePendingArtifactLink_frame (db : Db) (ownerId activityId artId : Nat) :
    Frame db (ensurePendingArtifactLink db ownerId activityId artId) := by
  unfold ensurePendingArtifactLink
  split <;> exact ⟨rfl, rfl⟩

variable {artifact : Artifact}

variable {receipt : ArtifactIntentReceipt} {objectKey : String}

theorem confirmedArtifact_frame
    (h : confirmedArtifact store db ownerId receipt objectKey = .ok (artifact, after)) :
    Frame db after := by
  rcases confirmedArtifact_cases h with rfl | ⟨intent, hupload⟩
  · exact Frame.refl _
  · rcases artifactOfUpload_cases hupload with rfl | ⟨-, rfl⟩
    · exact Frame.refl _
    · exact ⟨rfl, rfl⟩

theorem confirmArtifact_frame {uploadKey : String}
    (h : confirmArtifact env store db ownerId expectedVersion uploadKey objectKey row =
      .ok (response, after))
    : Frame db after ∧ Answers .artifactConfirm response := by
  simp only [confirmArtifact, bind_ok_iff] at h
  obtain ⟨_, -, _, -, _, -, _, hart, hres⟩ := h
  cases hres
  exact ⟨(confirmedArtifact_frame hart).trans (ensurePendingArtifactLink_frame _ _ _ _),
    rfl⟩

theorem refreshUpload_frame (h : refreshUpload store db ownerId row receipt = .ok (response, after))
    : Frame db after := by
  simp only [refreshUpload, bind_ok_iff] at h
  obtain ⟨_, -, _, -, hres⟩ := h
  cases hres
  split
  · exact ensurePendingArtifactLink_frame _ _ _ _
  · exact Frame.refl db

end Handlers

/-! ## The frame of a command -/

section Commands

variable {env : Env} {db after : Db} {ownerId : Nat} {key : String} {command other : Command}
  {response : Response} {work : LockedActivity → Except ActivityError (Response × Db)}

def admitted (env : Env) : Command → Except ActivityError Unit
  | .confirmArtifact .. => do
      let _ ← requireObjectStore env
      return ()
  | .submitSelfReview _ _ answers selfScore => validateSelfReviewValues answers selfScore
  | _ => .ok ()

/-- Every command but `presign_artifact` is these checks, the frame, and work
that leaves receipts to the frame. -/
theorem run_eq (env : Env) (db : Db) (ownerId : Nat) (key : String)
    (h : command.scope ≠ .artifactPresign) :
    ∃ work, (∀ row response after, work row = .ok (response, after) →
        Frame db after ∧ Answers command.scope response) ∧
      run env db ownerId command key = (do
        admitted env command
        idempotent env db ownerId command key work) := by
  cases command with
  | start => exact ⟨_, fun _ _ _ => Frame.writes.start, rfl⟩
  | heartbeat => exact ⟨_, fun _ _ _ => Frame.writes.heartbeat, rfl⟩
  | pause => exact ⟨_, fun _ _ _ => Frame.writes.pause, rfl⟩
  | resume => exact ⟨_, fun _ _ _ => Frame.writes.resume, rfl⟩
  | classifyIncomplete => exact ⟨_, fun _ _ _ => Frame.writes.classifyIncomplete, rfl⟩
  | presignArtifact => exact absurd rfl h
  | confirmArtifact activityId expectedVersion uploadKey objectKey =>
    cases hstore : env.store with
    | none =>
      refine ⟨fun _ => .error .validation, ?_, ?_⟩
      · intro row response after hwork
        cases hwork
      · simp only [run, admitted, requireObjectStore, hstore]
        rfl
    | some store =>
      refine ⟨confirmArtifact env store db ownerId expectedVersion uploadKey objectKey,
        fun _ _ _ => confirmArtifact_frame, ?_⟩
      simp only [run, admitted, requireObjectStore, hstore]
      rfl
  | setSourceVisibility => exact ⟨_, fun _ _ _ => Frame.writes.setSourceVisibility, rfl⟩
  | commitOutput => exact ⟨_, fun _ _ _ => Frame.writes.commitOutput, rfl⟩
  | submitSelfReview => exact ⟨_, fun _ _ _ => Frame.writes.submitSelfReview, rfl⟩

structure Kept (db : Db) (ownerId : Nat) (command : Command) (key : String)
    (response : Response) : Prop where
  safe : safeKey key = true
  receipt : ∃ receipt, db.receipt? ownerId command.scope key = some receipt ∧
    receipt.requestHash = command.requestHash ∧
    receipt.resultPayload.response? command.scope = some response

structure Grows (db after : Db) : Prop where
  receipts : ∃ extra, after.receipts = db.receipts ++ extra
  definitions : after.definitions = db.definitions

theorem Frame.grows (h : Frame db after) : Grows db after :=
  ⟨⟨[], by rw [h.receipts, List.append_nil]⟩, h.definitions⟩

theorem Grows.trans (h : Grows db mid) (h' : Grows mid after) : Grows db after := by
  obtain ⟨left, hleft⟩ := h.receipts
  obtain ⟨right, hright⟩ := h'.receipts
  refine ⟨⟨left ++ right, ?_⟩, h'.definitions.trans h.definitions⟩
  rw [hright, hleft, List.append_assoc]

theorem saveReceipt_grows (payload : Payload) :
    Grows db (saveReceipt env db ownerId command key payload) :=
  ⟨⟨_, rfl⟩, rfl⟩

theorem Kept.mono (h : Kept db ownerId command key response) (hgrows : Grows db after) :
    Kept after ownerId command key response := by
  obtain ⟨receipt, hf, hhash, hpay⟩ := h.receipt
  obtain ⟨extra, hextra⟩ := hgrows.receipts
  refine ⟨h.safe, receipt, ?_, hhash, hpay⟩
  unfold Db.receipt? at hf ⊢
  rw [hextra, List.find?_append, hf]
  rfl

theorem duplicate_none (h : duplicate db ownerId command key = .ok none) :
    safeKey key = true ∧ db.receipt? ownerId command.scope key = none := by
  simp only [duplicate, bind_ok_iff] at h
  obtain ⟨_, hsafe, h⟩ := h
  have hgrd := raiseFirst_eq_ok.mp hsafe
  simp only [List.forall_mem_cons, Bool.not_eq_false'] at hgrd
  split at h
  · rename_i hnone
    exact ⟨hgrd.1, hnone⟩
  · simp only [bind_ok_iff] at h
    obtain ⟨_, -, hres⟩ := h
    cases hres

theorem duplicate_some {payload : Payload}
    (h : duplicate db ownerId command key = .ok (some payload)) :
    safeKey key = true ∧ ∃ receipt, db.receipt? ownerId command.scope key = some receipt ∧
      receipt.requestHash = command.requestHash ∧ receipt.resultPayload = payload := by
  simp only [duplicate, bind_ok_iff] at h
  obtain ⟨_, hsafe, h⟩ := h
  have hgrd := raiseFirst_eq_ok.mp hsafe
  simp only [List.forall_mem_cons, Bool.not_eq_false'] at hgrd
  split at h
  · cases h
  · rename_i receipt hf
    simp only [bind_ok_iff] at h
    obtain ⟨_, hhash, hres⟩ := h
    cases hres
    have hsame := raiseFirst_eq_ok.mp hhash
    simp only [List.forall_mem_cons, bne_eq_false_iff_eq] at hsame
    exact ⟨hgrd.1, receipt, hf, hsame.1, rfl⟩

theorem idempotent_kept (hwork : ∀ row response after, work row = .ok (response, after) →
      Frame db after ∧ Answers command.scope response)
    (h : idempotent env db ownerId command key work = .ok (response, after)) :
    Kept after ownerId command key response ∧ Grows db after ∧
      ∃ row, db.load ownerId command.activityId = .ok row := by
  simp only [idempotent, bind_ok_iff] at h
  obtain ⟨row, hload, duplicate?, hdup, h⟩ := h
  cases duplicate? with
  | some payload =>
    obtain ⟨hsafe, receipt, hf, hhash, rfl⟩ := duplicate_some hdup
    dsimp only at h
    split at h
    · cases h
    · rename_i stored hresp
      cases h
      exact ⟨⟨hsafe, receipt, hf, hhash, hresp⟩, (Frame.refl _).grows, row, hload⟩
  | none =>
    obtain ⟨hsafe, hnone⟩ := duplicate_none hdup
    simp only [bind_ok_iff] at h
    obtain ⟨⟨res, db₁⟩, hres, ha⟩ := h
    cases ha
    obtain ⟨hframe, hanss⟩ := hwork row _ _ hres
    refine ⟨⟨hsafe, ?_⟩, hframe.grows.trans (saveReceipt_grows _), row, hload⟩
    refine ⟨⟨ownerId, command.scope, key, command.requestHash, .response res, env.savedAt,
      env.savedAt + receiptLifetime⟩, ?_, rfl, hanss⟩
    unfold Db.receipt? at hnone ⊢
    simp only [saveReceipt, hframe.receipts, List.find?_append, hnone]
    simp

theorem idempotent_replay {row : LockedActivity} (h : Kept db ownerId command key response)
    (hscope : other.scope = command.scope)
    (hload : db.load ownerId other.activityId = .ok row) :
    idempotent env db ownerId other key work =
      if other.requestHash = command.requestHash then .ok (response, db)
      else .error (.conflict "Idempotency-Key was reused for another command") := by
  obtain ⟨receipt, hf, hhash, hpay⟩ := h.receipt
  have hdup : duplicate db ownerId other key =
      if other.requestHash = command.requestHash then .ok (some receipt.resultPayload)
      else .error (.conflict "Idempotency-Key was reused for another command") := by
    simp only [duplicate, h.safe, hscope, hf, hhash]
    by_cases hsame : other.requestHash = command.requestHash
    · simp [hsame, raiseFirst, bind, Except.bind, pure, Except.pure]
    · have href : (command.requestHash != other.requestHash) = true :=
        bne_iff_ne.mpr fun heq => hsame heq.symm
      simp [hsame, href, raiseFirst, bind, Except.bind]
  simp only [idempotent, hload, hdup]
  by_cases hsame : other.requestHash = command.requestHash
  · simp [hsame, hscope, hpay, bind, Except.bind, pure, Except.pure]
  · simp [hsame, bind, Except.bind]

theorem presignArtifact_grows {expectedVersion : Nat} {artifactClass : ArtifactClass}
    {sha256 : String} {byteLength : Nat} {contentType filename : String}
    (h : presignArtifact env store db ownerId command key expectedVersion artifactClass sha256
      byteLength contentType filename = .ok (response, after))
    : Grows db after := by
  simp only [presignArtifact, bind_ok_iff] at h
  obtain ⟨row, -, duplicate?, -, h⟩ := h
  split at h
  · exact (refreshUpload_frame h).grows
  · cases h
  · simp only [bind_ok_iff] at h
    obtain ⟨receipt, -, h⟩ := h
    exact (saveReceipt_grows _).trans (refreshUpload_frame h).grows

theorem run_kept (hscope : command.scope ≠ .artifactPresign)
    (h : run env db ownerId command key = .ok (response, after)) :
    admitted env command = .ok () ∧ Kept after ownerId command key response ∧ Grows db after ∧
      ∃ row, db.load ownerId command.activityId = .ok row := by
  obtain ⟨work, hwork, hrun⟩ := run_eq env db ownerId key hscope
  rw [hrun, bind_ok_iff] at h
  obtain ⟨_, hadm, h⟩ := h
  exact ⟨hadm, idempotent_kept hwork h⟩

theorem run_grows (h : run env db ownerId command key = .ok (response, after)) :
    Grows db after := by
  by_cases hscope : command.scope = .artifactPresign
  · cases command <;> simp only [Command.scope, reduceCtorEq] at hscope
    simp only [run, bind_ok_iff] at h
    obtain ⟨store, -, h⟩ := h
    exact presignArtifact_grows h
  · exact (run_kept hscope h).2.2.1

theorem execute_grows (env : Env) (db : Db) (ownerId : Nat) (command : Command)
    (key : String) : Grows db (execute env db ownerId command key).2 := by
  unfold execute
  split
  · rename_i hrun
    exact run_grows hrun
  · exact (Frame.refl db).grows

end Commands

/-! ## Loading an activity again -/

section Loading

variable {env : Env} {db after : Db} {now : Instant} {ownerId activityId : Nat}

def Loadable (db : Db) (ownerId activityId : Nat) : Prop :=
  ∃ activity ∈ db.activities.rows, activity.ownerId = ownerId ∧ activity.id = activityId ∧
    (∃ day ∈ db.days.rows, day.ownerId = activity.ownerId ∧ day.id = activity.studyDayId) ∧
    ∃ definition ∈ db.definitions, definition.ownerId = activity.ownerId ∧
      definition.id = activity.taskDefinitionId

theorem load_iff (hcoh : Coherent db.core) :
    (∃ row, db.load ownerId activityId = .ok row) ↔ Loadable db ownerId activityId := by
  constructor
  · rintro ⟨row, hload⟩
    unfold Db.load at hload
    split at hload
    · cases hload
    · rename_i found hf
      simp only [Db.load?, Option.bind_eq_bind, Option.bind_eq_some_iff] at hf
      obtain ⟨activity, hact, day, hday, defn, hdefn, -⟩ := hf
      have hactKey := List.find?_some hact
      have hdayKey := List.find?_some hday
      have hdefnKey := List.find?_some hdefn
      simp only [decide_eq_true_eq] at hactKey hdayKey hdefnKey
      exact ⟨activity, List.mem_of_find?_eq_some hact, hactKey.1, hactKey.2,
        ⟨day, List.mem_of_find?_eq_some hday, hdayKey⟩,
        defn, List.mem_of_find?_eq_some hdefn, hdefnKey⟩
  · rintro ⟨activity, hact, hown, hid, ⟨day, hday, hdayKey⟩, defn, hdefn,
      hdefnKey⟩
    -- Identities are unique, so the first match is this activity.
    have hfst : db.activities.rows.find? (fun activity =>
        activity.ownerId = ownerId ∧ activity.id = activityId) = some activity := by
      cases hf : db.activities.rows.find? (fun activity =>
          activity.ownerId = ownerId ∧ activity.id = activityId) with
      | none =>
        have hnone := List.find?_eq_none.mp hf activity hact
        simp [hown, hid] at hnone
      | some found =>
        have hkey := List.find?_some hf
        simp only [decide_eq_true_eq] at hkey
        rw [hcoh.activities.eq_of_key (List.mem_of_find?_eq_some hf) hact
          (hkey.2.trans hid.symm)]
    have hsomeDay : (db.days.rows.find? fun day =>
        day.ownerId = activity.ownerId ∧ day.id = activity.studyDayId).isSome = true :=
      List.find?_isSome.mpr ⟨day, hday, by simpa using hdayKey⟩
    have hsomeDefn : (db.definitions.find? fun defn =>
        defn.ownerId = activity.ownerId ∧
          defn.id = activity.taskDefinitionId).isSome = true :=
      List.find?_isSome.mpr ⟨defn, hdefn, by simpa using hdefnKey⟩
    obtain ⟨firstDay, hfstDay⟩ := Option.isSome_iff_exists.mp hsomeDay
    obtain ⟨firstDefinition, hfstDefn⟩ := Option.isSome_iff_exists.mp hsomeDefn
    refine ⟨⟨activity, firstDay, firstDefinition⟩, ?_⟩
    simp only [Db.load, Db.load?, Option.bind_eq_bind, hfst, hfstDay, hfstDefn,
      Option.bind_some, Option.pure_def]

/-- The rows that loading reads are still there. -/
structure Keeps (db : Db) (core : Core) : Prop where
  activities : ∀ activity ∈ db.activities.rows, ∃ later ∈ core.activities.rows,
    later.id = activity.id ∧ later.ownerId = activity.ownerId ∧
      later.studyDayId = activity.studyDayId ∧
      later.taskDefinitionId = activity.taskDefinitionId
  days : ∀ day ∈ db.days.rows, ∃ later ∈ core.days.rows,
    later.id = day.id ∧ later.ownerId = day.ownerId

theorem kept_writtenActivities {row : LockedActivity} {new : ActivityRow}
    (hcoh : Coherent db.core) (hload : Loaded db ownerId row)
    (hid : new.id = row.activity.id) (hown : new.ownerId = row.activity.ownerId)
    (hday : new.studyDayId = row.activity.studyDayId)
    (hdefn : new.taskDefinitionId = row.activity.taskDefinitionId) :
    ∀ act ∈ db.activities.rows, ∃ later ∈ (db.writtenActivities new).rows,
      later.id = act.id ∧ later.ownerId = act.ownerId ∧
        later.studyDayId = act.studyDayId ∧
        later.taskDefinitionId = act.taskDefinitionId :=
  hcoh.activities.exists_replace (fun _ => ⟨rfl, rfl, rfl, rfl⟩) hload.activity_mem hid
    ⟨hid, hown, hday, hdefn⟩

theorem kept_writtenDays {old new : StudyDayRow} (hcoh : Coherent db.core)
    (hold : old ∈ db.days.rows) (hid : new.id = old.id) (hown : new.ownerId = old.ownerId) :
    ∀ day ∈ db.days.rows, ∃ later ∈ (db.writtenDays old new).rows,
      later.id = day.id ∧ later.ownerId = day.ownerId := by
  intro day hmem
  rcases exists_writtenDays hcoh hold hid hmem with ⟨rfl, hnew⟩ | ⟨-, hkept⟩
  · exact ⟨new, hnew, hid, hown⟩
  · exact ⟨day, hkept, rfl, rfl⟩

theorem Effect.keeps (hcoh : Coherent db.core) (heff : Effect now db after) :
    Keeps db after.core := by
  have hacts : ∀ act ∈ db.activities.rows, ∃ later ∈ db.activities.rows,
      later.id = act.id ∧ later.ownerId = act.ownerId ∧
        later.studyDayId = act.studyDayId ∧
        later.taskDefinitionId = act.taskDefinitionId :=
    fun act hmem => ⟨act, hmem, rfl, rfl, rfl, rfl⟩
  have hdays : ∀ day ∈ db.days.rows, ∃ later ∈ db.days.rows,
      later.id = day.id ∧ later.ownerId = day.ownerId :=
    fun day hmem => ⟨day, hmem, rfl, rfl⟩
  cases heff with
  | quiet core =>
    rw [core]
    exact ⟨hacts, hdays⟩
  | shown loaded changed activity_eq core =>
    rw [core]
    refine ⟨?_, hdays⟩
    apply kept_writtenActivities hcoh loaded <;> rw [activity_eq]
  | opened key loaded from_state open_day moved free day_eq core =>
    rw [core]
    refine ⟨kept_writtenActivities hcoh loaded moved.id moved.ownerId moved.studyDayId
      moved.taskDefinitionId, ?_⟩
    apply kept_writtenDays hcoh loaded.day_mem
    · rcases day_eq with rfl | rfl <;> rfl
    · rcases day_eq with rfl | rfl <;> rfl
  | beat loaded active counted core =>
    rw [core]
    refine ⟨hacts, ?_⟩
    apply kept_writtenDays hcoh loaded.day_mem <;> rw [counted.day_eq]
  | ended pausedAt loaded allowed inactive moved counted saved core =>
    rw [core]
    refine ⟨kept_writtenActivities hcoh loaded moved.id moved.ownerId moved.studyDayId
      moved.taskDefinitionId, ?_⟩
    apply kept_writtenDays hcoh loaded.day_mem <;> rw [counted.day_eq]
  | dropped loaded allowed closed moved core =>
    rw [core]
    exact ⟨kept_writtenActivities hcoh loaded moved.id moved.ownerId moved.studyDayId
      moved.taskDefinitionId, hdays⟩
  | reviewed loaded committed moved core =>
    rw [core]
    exact ⟨kept_writtenActivities hcoh loaded moved.id moved.ownerId moved.studyDayId
      moved.taskDefinitionId, hdays⟩

theorem Loadable.keeps (h : Loadable db ownerId activityId) (hkeeps : Keeps db after.core)
    (hdefns : after.definitions = db.definitions) :
    Loadable after ownerId activityId := by
  obtain ⟨act, hact, hown, hid, ⟨day, hday, hdayOwn, hdayId⟩, definition,
    hdefn, hdefnOwn, hdefnId⟩ := h
  obtain ⟨later, hlat, hlatId, hlatOwn, hlatDay, hlatDefn⟩ :=
    hkeeps.activities act hact
  obtain ⟨laterDay, hlatDayMem, hlatDayId, hlatDayOwn⟩ := hkeeps.days day hday
  refine ⟨later, hlat, hlatOwn.trans hown, hlatId.trans hid,
    ⟨laterDay, hlatDayMem, ?_, ?_⟩, definition, hdefns ▸ hdefn, ?_, ?_⟩
  · rw [hlatDayOwn, hdayOwn, hlatOwn]
  · rw [hlatDayId, hdayId, hlatDay]
  · rw [hdefnOwn, hlatOwn]
  · rw [hdefnId, hlatDefn]

end Loading

/-! ## Replays after any commands -/

section Replays

variable {env : Env} {db : Db} {ownerId : Nat} {key : String} {command other : Command}
  {response : Response}

theorem coherent_execute (h : Coherent db.core) (env : Env) (ownerId : Nat) (command : Command)
    (key : String) : Coherent (execute env db ownerId command key).2.core :=
  h.effect (execute_effect env db ownerId command key)

theorem coherent_afterCalls (h : Coherent db.core) (calls : List Call) :
    Coherent (afterCalls db calls).core := by
  induction calls generalizing db with
  | nil => exact h
  | cons call rest ih => exact ih (coherent_execute h _ _ _ _)

theorem afterCalls_grows (db : Db) (calls : List Call) : Grows db (afterCalls db calls) := by
  induction calls generalizing db with
  | nil => exact (Frame.refl db).grows
  | cons call rest ih => exact (execute_grows _ _ _ _ _).trans (ih _)

theorem Loadable.execute {activityId : Nat} (h : Loadable db ownerId activityId)
    (hcoh : Coherent db.core) (env : Env) (owner : Nat) (command : Command)
    (key : String) :
    Loadable (ActivityService.execute env db owner command key).2 ownerId activityId :=
  h.keeps ((execute_effect env db owner command key).keeps hcoh)
    (execute_grows env db owner command key).definitions

theorem Loadable.afterCalls {activityId : Nat} (h : Loadable db ownerId activityId)
    (hcoh : Coherent db.core) (calls : List Call) :
    Loadable (ActivityService.afterCalls db calls) ownerId activityId := by
  induction calls generalizing db with
  | nil => exact h
  | cons call rest ih =>
    exact ih (h.execute hcoh _ _ _ _) (coherent_execute hcoh _ _ _ _)

theorem execute_ok (h : (execute env db ownerId command key).1 = .ok response) :
    run env db ownerId command key = .ok (response, (execute env db ownerId command key).2) := by
  unfold execute at h ⊢
  split at h
  · rename_i result after hrun
    cases h
    exact hrun
  · cases h

/-- A used key answers the same request from its receipt and refuses every other
one, without a change. -/
theorem execute_replay {row : LockedActivity} (h : Kept db ownerId command key response)
    (hscope : other.scope = command.scope) (hpresign : command.scope ≠ .artifactPresign)
    (hadm : admitted env other = .ok ())
    (hload : db.load ownerId other.activityId = .ok row) :
    execute env db ownerId other key =
      if other.requestHash = command.requestHash then (.ok response, db)
      else (.error (.conflict "Idempotency-Key was reused for another command"), db) := by
  obtain ⟨work, -, hrun⟩ := run_eq env db ownerId key (hscope ▸ hpresign)
  have hrpl : idempotent env db ownerId other key work = _ :=
    idempotent_replay h hscope hload
  unfold execute
  rw [hrun, hadm]
  by_cases hsame : other.requestHash = command.requestHash
  · rw [if_pos hsame] at hrpl ⊢
    simp only [bind, Except.bind, hrpl]
  · rw [if_neg hsame] at hrpl ⊢
    simp only [bind, Except.bind, hrpl]

/-- What is checked first depends on the arguments and on whether there is an
object store. -/
theorem admitted_congr {env' : Env} (h : env'.store.isSome = env.store.isSome) :
    admitted env' command = .ok () ↔ admitted env command = .ok () := by
  cases command with
  | confirmArtifact =>
    simp only [admitted, requireObjectStore]
    cases hstore : env.store <;> cases hstore' : env'.store <;>
      simp_all [bind, Except.bind, pure, Except.pure]
  | _ => exact Iff.rfl

/-- Whatever is wrong with the arguments, a used key never lets other ones
through. -/
theorem execute_refused (h : Kept db ownerId command key response)
    (hscope : other.scope = command.scope) (hpresign : command.scope ≠ .artifactPresign)
    (hdiffer : other.requestHash ≠ command.requestHash) :
    ∃ error, execute env db ownerId other key = (.error error, db) := by
  cases hres : (execute env db ownerId other key).1 with
  | error error =>
    refine ⟨error, ?_⟩
    rw [← hres]
    exact Prod.ext rfl (execute_error hres)
  | ok result =>
    have hotherScope : other.scope ≠ .artifactPresign := hscope ▸ hpresign
    obtain ⟨hadm, -, -, row, hload⟩ := run_kept hotherScope (execute_ok hres)
    have hrpl := execute_replay h hscope hpresign hadm hload
    rw [hrpl, if_neg hdiffer] at hres
    cases hres

end Replays

/-- In every reachable state a command that succeeded answers the same request
under the same key as it did the first time, after any further commands, and
nothing changes.  Other arguments under the key change nothing either; they are
a conflict as soon as the command accepts them and their activity exists. -/
theorem replayed_commands {start db : Db} {trace : List (Transition Db Event)}
    (hinitial : Initial start) (hrun : Run Step start trace db) {env env' : Env}
    {ownerId : Nat} {command : Command} {key : String} {response : Response}
    (hcommand : command.scope ≠ .artifactPresign)
    (hfirst : (execute env db ownerId command key).1 = .ok response) (calls : List Call)
    (hstore : env'.store.isSome = env.store.isSome) :
    let final := afterCalls (execute env db ownerId command key).2 calls
    execute env' final ownerId command key = (.ok response, final) ∧
      ∀ other : Command, other.scope = command.scope →
        other.requestHash ≠ command.requestHash →
        ∃ error, execute env' final ownerId other key = (.error error, final) ∧
          (admitted env' other = .ok () →
            (∃ row, final.load ownerId other.activityId = .ok row) →
              error = .conflict "Idempotency-Key was reused for another command") := by
  intro final
  have hcoherent : Coherent db.core := hrun.state_invariant
    (I := fun db => Coherent db.core) (coherent_of_initial hinitial)
    fun _ _ _ h hstep => h.step hstep
  have hafter := coherent_execute hcoherent env ownerId command key
  have hfinal : Coherent final.core := coherent_afterCalls hafter calls
  obtain ⟨hadmitted, hkept, -, hload⟩ := run_kept hcommand (execute_ok hfirst)
  have hkept : Kept final ownerId command key response :=
    hkept.mono (afterCalls_grows _ calls)
  constructor
  · have hloadable : Loadable final ownerId command.activityId :=
      (((load_iff hcoherent).mp hload).execute hcoherent env ownerId command key).afterCalls
        hafter calls
    obtain ⟨row, hrow⟩ := (load_iff hfinal).mpr hloadable
    have hreplay := execute_replay hkept rfl hcommand ((admitted_congr hstore).mpr hadmitted) hrow
    rw [hreplay, if_pos rfl]
  · intro other hscope hdiffer
    obtain ⟨error, herror⟩ : ∃ error, execute env' final ownerId other key =
        (.error error, final) := execute_refused hkept hscope hcommand hdiffer
    refine ⟨error, herror, ?_⟩
    rintro hother ⟨row, hrow⟩
    have hreplay := execute_replay hkept hscope hcommand hother hrow
    rw [if_neg hdiffer, herror] at hreplay
    cases hreplay
    rfl

/-- The first call of the sample run, repeated at its end. -/
theorem replayed_commands_sample :
    ∃ response,
      (execute (sampleCall 0 (.start 1 1) "start-1").env samplePlanned 1 (.start 1 1)
        "start-1").1 = .ok response ∧
      let final := afterCalls (execute (sampleCall 0 (.start 1 1) "start-1").env samplePlanned 1
        (.start 1 1) "start-1").2 (sampleCalls.drop 1)
      execute (sampleCall 60 (.start 1 1) "start-1").env final 1 (.start 1 1) "start-1" =
          (.ok response, final) ∧
        ∀ other : Command, other.scope = .start → other.requestHash ≠ .start 1 1 →
          ∃ error, execute (sampleCall 60 (.start 1 1) "start-1").env final 1 other "start-1" =
              (.error error, final) ∧
            (admitted (sampleCall 60 (.start 1 1) "start-1").env other = .ok () →
              (∃ row, final.load 1 other.activityId = .ok row) →
                error = .conflict "Idempotency-Key was reused for another command") := by
  have hok : (execute (sampleCall 0 (.start 1 1) "start-1").env samplePlanned 1 (.start 1 1)
      "start-1").1.isOk = true := by
    decide +kernel
  obtain ⟨response, hresponse⟩ := exists_ok_of_isOk hok
  exact ⟨response, hresponse, replayed_commands initial_sampleStore
    (Run.single (Step.planned planned_sample)) (by decide) hresponse (sampleCalls.drop 1) rfl⟩

/-- The key of a started activity under a request for an activity that does not
exist: the activity is looked up first, and its absence is no conflict. -/
theorem reused_key_not_found :
    ¬ ∀ (start db : Db) (trace : List (Transition Db Event)), Initial start →
      Run Step start trace db → ∀ (env : Env) (ownerId : Nat) (command other : Command)
        (key : String) (response : Response),
      (execute env db ownerId command key).1 = .ok response → other.scope = command.scope →
      other.requestHash ≠ command.requestHash →
      ∃ message, execute env (execute env db ownerId command key).2 ownerId other key =
        (.error (.conflict message), (execute env db ownerId command key).2) := by
  intro hall
  have hok : (execute (sampleCall 0 (.start 1 1) "start-1").env samplePlanned 1 (.start 1 1)
      "start-1").1.isOk = true := by
    decide +kernel
  obtain ⟨response, hresponse⟩ := exists_ok_of_isOk hok
  obtain ⟨message, hconflict⟩ := hall sampleStore samplePlanned _ initial_sampleStore
    (Run.single (Step.planned planned_sample)) (sampleCall 0 (.start 1 1) "start-1").env 1
    (.start 1 1) (.start 3 1) "start-1" response hresponse rfl (by decide)
  have hmissing : (execute (sampleCall 0 (.start 1 1) "start-1").env
      (execute (sampleCall 0 (.start 1 1) "start-1").env samplePlanned 1 (.start 1 1)
        "start-1").2 1 (.start 3 1) "start-1").1 =
      .error (.notFound "activity was not found") := by
    decide +kernel
  rw [hconflict] at hmissing
  cases hmissing

end TamForge.Learning.ActivityService
