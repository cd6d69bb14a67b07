import TamForge.Activities.Uploader

/-!
# The uploader settles

What holds of the uploader between two events: where its operation stands says
which staged copy exists, and where none is running the copy is that of the
confirmation which is still pending.
-/

namespace TamForge.Activities

open Learning Learning.ActivityService Uploader

variable {u u' : Uploader} {op : Operation} {copy : StagedFile} {pending : PendingConfirmation}
  {request : Option Request} {event : Event}

def pendingFiles (u : Uploader) : List Nat :=
  (u.pending.map fun pending => pending.staged.fileURL).toList

/-- No copy is left but that of a pending confirmation, and the state says whether
there is one. -/
structure Settled (u : Uploader) : Prop where
  files : u.files = pendingFiles u
  state : u.state = .confirmationIndeterminate ↔ u.pending.isSome = true

def Holds (u : Uploader) (op : Operation) (pending : PendingConfirmation) : Prop :=
  u.files = pendingFiles u ∧
    (u.pending = some pending ∨ u.pending = none ∧ op.isCancelled = true)

def StageInv (u : Uploader) (op : Operation) : Prop :=
  match op.stage with
  | .created (.upload _ _ _) | .staging _ _ _ => u.pending = none ∧ u.files = []
  | .presigning staged _ _ | .uploading staged _ _ _ =>
    u.pending = none ∧ u.files = [staged.fileURL]
  | .created (.reconcile pending) | .confirming pending | .represigning pending
  | .reconfirming pending => Holds u op pending
  | .finished result => u.files = pendingFiles u ∧
      ∀ artifact, result = .ok artifact →
        u.pending = none ∧ (u.state = .complete ∨ u.state = .cancelled)

structure UploaderInv (u : Uploader) : Prop where
  running : u.isRunning = u.operation.isSome
  idle : u.operation = none → Settled u
  stage : ∀ op, u.operation = some op → StageInv u op

theorem UploaderInv.new : UploaderInv Uploader.new where
  running := rfl
  idle := fun _ => ⟨rfl, by simp [Uploader.new]⟩
  stage := by simp [Uploader.new]

/-! ## Files -/

theorem abandon_pending (u : Uploader) : u.abandon.pending = none := rfl

theorem abandon_files (h : u.files = pendingFiles u) : u.abandon.files = [] := by
  cases hpend : u.pending with
  | none => simp [abandon, hpend, h, pendingFiles]
  | some pending => simp [abandon, hpend, h, pendingFiles, remove]

theorem abandon_none (h : u.pending = none) : u.abandon.files = u.files := by
  simp [abandon, h]

theorem settled_abandon (h : u.files = pendingFiles u) : Settled u.abandon := by
  refine ⟨?_, ?_⟩
  · rw [abandon_files h, pendingFiles, abandon_pending]
    rfl
  · simp [abandon]

theorem complete_files (h : Holds u op pending) (hpend : u.pending = some pending) :
    (u.complete pending).files = [] := by
  simp [complete, remove, h.1, pendingFiles, hpend]

variable {stage : Stage}

theorem UploaderInv.goOn (hrun : u.isRunning = true)
    (hstage : StageInv u { op with stage := stage }) : UploaderInv (u.goOn op stage) where
  running := hrun
  idle := by
    intro hnone
    cases hnone
  stage := by
    rintro op' ⟨⟩
    exact hstage

theorem UploaderInv.ends_error (hrun : u.isRunning = true) (hfiles : u.files = pendingFiles u)
    (error : UploadError) : UploaderInv (u.ends op (.error error)) :=
  UploaderInv.goOn hrun ⟨hfiles, by simp⟩

theorem UploaderInv.ends_ok {artifact : ArtifactResponse} (hrun : u.isRunning = true)
    (hfiles : u.files = []) (hpend : u.pending = none) (hst : u.state = .complete) :
    UploaderInv (u.ends op (.ok artifact)) := by
  refine UploaderInv.goOn hrun ⟨?_, fun _ _ => ⟨hpend, Or.inl hst⟩⟩
  rw [hfiles, pendingFiles, hpend]
  rfl

/-- Before anything is pending, the `defer` of `upload` removes the copy. -/
theorem leaves_none (hpend : u.pending = none)
    (hfiles : u.files = [copy.fileURL] ∨ u.files = [])
    (result : Except UploadError ArtifactResponse) :
    u.leaves op copy result = ends { u with files := [] } op result := by
  have hremoved : u.remove copy = { u with files := [] } := by
    rcases hfiles with hfiles | hfiles
    all_goals simp [remove, hfiles]
  simp [leaves, hpend, hremoved]

theorem leaves_pending (hpend : u.pending = some pending)
    (result : Except UploadError ArtifactResponse) :
    u.leaves op pending.staged result = u.ends op result := by
  simp [leaves, hpend]

theorem UploaderInv.leaves_error (hrun : u.isRunning = true) (hpend : u.pending = none)
    (hfiles : u.files = [copy.fileURL]) (error : UploadError) :
    UploaderInv (u.leaves op copy (.error error)) := by
  rw [leaves_none hpend (Or.inl hfiles)]
  refine UploaderInv.ends_error (u := { u with files := [] }) hrun ?_ error
  simp [pendingFiles, hpend]

theorem Holds.leaves_error (h : Holds u op pending) (hrun : u.isRunning = true)
    (error : UploadError) : UploaderInv (u.leaves op pending.staged (.error error)) := by
  obtain ⟨hfiles, hpend | ⟨hpend, -⟩⟩ := h
  · rw [leaves_pending hpend]
    exact UploaderInv.ends_error hrun hfiles error
  · have hfiles : u.files = [] := by simp [hfiles, pendingFiles, hpend]
    rw [leaves_none hpend (Or.inr hfiles)]
    refine UploaderInv.ends_error (u := { u with files := [] }) hrun ?_ error
    simp [pendingFiles, hpend]

/-! ## Calls -/

theorem UploaderInv.unblocked (h : UploaderInv u) (hblks : u.blocksMutations = false) :
    u.operation = none ∧ u.pending = none ∧ u.files = [] := by
  simp only [blocksMutations, Bool.or_eq_false_iff, beq_eq_false_iff_ne] at hblks
  obtain ⟨hrun, hst⟩ := hblks
  have hnone : u.operation = none := by
    rw [h.running] at hrun
    simpa using hrun
  have hsetl := h.idle hnone
  have hpend : u.pending = none := by
    by_contra hsome
    exact hst (hsetl.state.mpr (Option.isSome_iff_ne_none.mpr hsome))
  refine ⟨hnone, hpend, ?_⟩
  simp [hsetl.files, pendingFiles, hpend]

theorem UploaderInv.upload (h : UploaderInv u) (activityId expVer : Nat)
    (artifactClass : ArtifactClass) (cancelled : Bool) :
    UploaderInv (u.upload activityId expVer artifactClass cancelled) := by
  unfold Uploader.upload
  by_cases hblks : u.blocksMutations = true
  · rw [if_pos hblks]
    exact h
  · rw [if_neg hblks]
    obtain ⟨hnone, hpend, hfiles⟩ := h.unblocked (by simpa using hblks)
    cases cancelled with
    | true =>
      refine ⟨h.running, fun _ => ⟨(h.idle hnone).files, ?_⟩, ?_⟩
      · simp [Uploader.run, hpend]
      · intro op hsome
        rw [show u.operation = some op from hsome] at hnone
        cases hnone
    | false =>
      refine ⟨rfl, by simp [Uploader.run], ?_⟩
      rintro op ⟨⟩
      exact ⟨hpend, hfiles⟩

/-- `reconcile` is not called by a task that is cancelled already, unless its guard
fails. -/
def Prompt (u : Uploader) (event : Event) : Prop :=
  match event with
  | .reconcile true => u.isRunning = true ∨ u.pending = none
  | _ => True

theorem UploaderInv.reconcile (h : UploaderInv u) (cancelled : Bool)
    (hprompt : Prompt u (.reconcile cancelled)) :
    UploaderInv (u.reconcile cancelled) := by
  unfold Uploader.reconcile
  cases hpend : u.pending with
  | none => exact h
  | some pending =>
    dsimp only
    by_cases hrun : u.isRunning = true
    · rw [if_pos hrun]
      exact h
    · rw [if_neg hrun]
      cases cancelled with
      | true =>
        rcases hprompt with htrue | hnone
        · exact absurd htrue hrun
        · rw [hpend] at hnone
          cases hnone
      | false =>
        have hnone : u.operation = none := by
          rw [h.running] at hrun
          simpa using hrun
        refine ⟨rfl, by simp [Uploader.run], ?_⟩
        rintro op ⟨⟩
        exact ⟨(h.idle hnone).files, Or.inl hpend⟩

theorem StageInv.flags {op' : Operation} (h : StageInv u op) (hstage : op'.stage = op.stage)
    (hcanc : op.isCancelled = true → op'.isCancelled = true) : StageInv u op' := by
  have hholds : ∀ pending, Holds u op pending → Holds u op' pending := by
    rintro pending ⟨hfiles, hpend | ⟨hpend, hflag⟩⟩
    · exact ⟨hfiles, Or.inl hpend⟩
    · exact ⟨hfiles, Or.inr ⟨hpend, hcanc hflag⟩⟩
  unfold StageInv at h ⊢
  rw [hstage]
  generalize op.stage = stage at h ⊢
  match stage, h with
  | .created (.upload _ _ _), h | .staging _ _ _, h => exact h
  | .presigning _ _ _, h | .uploading _ _ _ _, h => exact h
  | .created (.reconcile pending), h | .confirming pending, h => exact hholds pending h
  | .represigning pending, h | .reconfirming pending, h => exact hholds pending h
  | .finished _, h => exact h

/-- Whatever the operation has, only the copy it is working on survives `abandon`. -/
theorem StageInv.abandon (h : StageInv u op) (marked : Bool) :
    StageInv u.abandon (op.cancel marked) := by
  have hcanc : op.stage.isFinished = false → (op.cancel marked).isCancelled = true := by
    intro hfalse
    simp [Operation.cancel, hfalse]
  have hcopies : ∀ files, u.pending = none ∧ u.files = files →
      u.abandon.pending = none ∧ u.abandon.files = files := by
    rintro files ⟨hpend, rfl⟩
    exact ⟨rfl, abandon_none hpend⟩
  have hdrop : u.files = pendingFiles u → u.abandon.files = pendingFiles u.abandon := by
    intro hfiles
    rw [abandon_files hfiles, pendingFiles, abandon_pending]
    rfl
  unfold StageInv at h ⊢
  rw [show (op.cancel marked).stage = op.stage from rfl]
  have hholds : ∀ pending, op.stage.isFinished = false → Holds u op pending →
      Holds u.abandon (op.cancel marked) pending := fun pending hfalse hheld =>
    ⟨hdrop hheld.1, Or.inr ⟨rfl, hcanc hfalse⟩⟩
  clear hcanc
  generalize op.stage = stage at h hholds ⊢
  match stage, h with
  | .created (.upload _ _ _), h | .staging _ _ _, h => exact hcopies _ h
  | .presigning _ _ _, h | .uploading _ _ _ _, h => exact hcopies _ h
  | .created (.reconcile pending), h | .confirming pending, h => exact hholds pending rfl h
  | .represigning pending, h | .reconfirming pending, h => exact hholds pending rfl h
  | .finished _, h => exact ⟨hdrop h.1, fun _ _ => ⟨rfl, Or.inr rfl⟩⟩

theorem cancel_eq (u : Uploader) (marked : Bool) : u.cancel marked =
    { u.abandon with operation := u.operation.map fun op => op.cancel marked } := by
  unfold Uploader.cancel abandon
  dsimp only
  split
  all_goals rfl

theorem UploaderInv.cancel (h : UploaderInv u) (marked : Bool) : UploaderInv (u.cancel marked) := by
  rw [cancel_eq]
  refine ⟨?_, ?_, ?_⟩
  · show u.abandon.isRunning = (u.operation.map fun op => op.cancel marked).isSome
    have hrun : u.abandon.isRunning = u.isRunning := by
      unfold abandon
      split
      all_goals rfl
    rw [hrun, h.running, Option.isSome_map]
  · intro hnone
    have hsetl := settled_abandon (h.idle (Option.map_eq_none_iff.mp hnone)).files
    exact ⟨hsetl.files, hsetl.state⟩
  · intro op' hsome
    obtain ⟨op, hop, rfl⟩ := Option.map_eq_some_iff.mp hsome
    exact (h.stage op hop).abandon marked

theorem UploaderInv.cancelCaller (h : UploaderInv u) (marked : Bool) :
    UploaderInv (u.cancelCaller marked) := by
  refine ⟨?_, ?_, ?_⟩
  · show u.isRunning = (u.operation.map _).isSome
    rw [h.running, Option.isSome_map]
  · intro hnone
    have hsetl := h.idle (Option.map_eq_none_iff.mp hnone)
    exact ⟨hsetl.files, hsetl.state⟩
  · intro op' hsome
    obtain ⟨op, hop, rfl⟩ := Option.map_eq_some_iff.mp hsome
    have hstage : StageInv u { op.cancel marked with callerCancelled := true } := by
      apply (h.stage op hop).flags
      · rfl
      · intro hcanc
        simp [Operation.cancel, hcanc]
    exact hstage

/-! ## The task -/

theorem UploaderInv.at_stage (h : UploaderInv u) (hop : u.operation = some op)
    (hstage : op.stage = stage) : u.isRunning = true ∧ StageInv u { op with stage := stage } := by
  refine ⟨by simp [h.running, hop], ?_⟩
  rw [← hstage]
  exact h.stage op hop

theorem UploaderInv.begins {work : Work} (h : UploaderInv u) (hop : u.operation = some op)
    (hcase : op.stage = .created work) : UploaderInv (u.begins op work).1 := by
  obtain ⟨hrun, hstage⟩ := h.at_stage hop hcase
  unfold Uploader.begins
  cases work with
  | upload activityId expectedVersion artifactClass =>
    obtain ⟨hpend, hfiles⟩ : u.pending = none ∧ u.files = [] := hstage
    split
    · refine UploaderInv.ends_error hrun ?_ _
      simp [hfiles, pendingFiles, hpend]
    · exact UploaderInv.goOn hrun ⟨hpend, hfiles⟩
  | reconcile pending =>
    obtain ⟨hfiles, hheld⟩ : Holds u op pending := hstage
    split
    · exact UploaderInv.ends_error hrun hfiles _
    · exact UploaderInv.goOn hrun ⟨hfiles, hheld⟩

theorem UploaderInv.staged {activityId expVer : Nat} {artifactClass : ArtifactClass}
    (h : UploaderInv u) (hop : u.operation = some op)
    (hcase : op.stage = .staging activityId expVer artifactClass)
    (filename : String) (byteLength : Nat) (sha256 contentType idempotencyKey : String) :
    UploaderInv (u.staged op activityId expVer artifactClass filename byteLength
      sha256 contentType idempotencyKey).1 := by
  obtain ⟨hrun, hpend, hfiles⟩ := h.at_stage hop hcase
  unfold Uploader.staged
  dsimp only
  split
  · refine UploaderInv.leaves_error (u := { u with
      files := u.nextFile :: u.files
      nextFile := u.nextFile + 1 }) hrun hpend ?_ _
    simp [hfiles]
  · refine UploaderInv.goOn hrun ⟨hpend, ?_⟩
    simp [hfiles]

variable {command : PresignCommand} {mayRefresh : Bool}

theorem UploaderInv.finish (h : UploaderInv u) (hop : u.operation = some op)
    (hcase : op.stage = .presigning copy command mayRefresh) (response : ArtifactPresignResponse) :
    UploaderInv (u.finish op copy command mayRefresh response) := by
  obtain ⟨hrun, hpend, hfiles⟩ := h.at_stage hop hcase
  unfold Uploader.finish
  split
  · exact UploaderInv.leaves_error hrun hpend hfiles _
  · split
    · rw [leaves_none (u := { u with state := .complete }) hpend (Or.inl hfiles)]
      exact UploaderInv.ends_ok hrun rfl hpend rfl
    · split
      · exact UploaderInv.leaves_error hrun hpend hfiles _
      · exact UploaderInv.goOn hrun ⟨hpend, hfiles⟩

variable {objectKey : String}

theorem UploaderInv.uploaded (h : UploaderInv u) (hop : u.operation = some op)
    (hcase : op.stage = .uploading copy command objectKey mayRefresh) :
    UploaderInv (u.uploaded op copy command objectKey).1 := by
  obtain ⟨hrun, hpend, hfiles⟩ := h.at_stage hop hcase
  unfold Uploader.uploaded
  split
  · exact UploaderInv.leaves_error hrun hpend hfiles _
  · exact UploaderInv.goOn hrun ⟨hfiles, Or.inl rfl⟩

theorem UploaderInv.uploadFailed (h : UploaderInv u) (hop : u.operation = some op)
    (hcase : op.stage = .uploading copy command objectKey mayRefresh) (error : UploadError) :
    UploaderInv (u.uploadFailed op copy command mayRefresh error).1 := by
  obtain ⟨hrun, hpend, hfiles⟩ := h.at_stage hop hcase
  unfold Uploader.uploadFailed
  split
  · split
    · exact UploaderInv.leaves_error hrun hpend hfiles _
    · exact UploaderInv.goOn hrun ⟨hpend, hfiles⟩
  · exact UploaderInv.leaves_error hrun hpend hfiles _

theorem Holds.pending_eq (h : Holds u op pending) (hcanc : op.isCancelled ≠ true) :
    u.pending = some pending := by
  rcases h.2 with hpend | ⟨-, htrue⟩
  · exact hpend
  · exact absurd htrue hcanc

theorem UploaderInv.represigned (h : UploaderInv u) (hop : u.operation = some op)
    (hcase : op.stage = .represigning pending) (response : ArtifactPresignResponse) :
    UploaderInv (u.represigned op pending response).1 := by
  obtain ⟨hrun, hholds⟩ := h.at_stage hop hcase
  have hholds : Holds u op pending := hholds
  unfold Uploader.represigned
  split
  · exact UploaderInv.ends_error hrun hholds.1 _
  · rename_i hcanc
    have hpend := hholds.pending_eq hcanc
    split
    · exact UploaderInv.ends_ok hrun (complete_files hholds hpend) rfl rfl
    · exact UploaderInv.goOn hrun hholds

theorem UploaderInv.confirmed (h : UploaderInv u) (hop : u.operation = some op)
    (hcase : op.stage = .confirming pending) (artifact : ArtifactResponse) :
    UploaderInv (u.confirmed op pending (fun u => u.leaves op pending.staged) artifact) := by
  obtain ⟨hrun, hholds⟩ := h.at_stage hop hcase
  have hholds : Holds u op pending := hholds
  unfold Uploader.confirmed
  split
  · exact hholds.leaves_error hrun _
  · rename_i hcanc
    have hfiles := complete_files hholds (hholds.pending_eq hcanc)
    show UploaderInv ((u.complete pending).leaves op pending.staged (.ok artifact))
    rw [leaves_none rfl (Or.inr hfiles)]
    exact UploaderInv.ends_ok (u := { u.complete pending with files := [] }) hrun rfl rfl rfl

theorem UploaderInv.reconfirmed (h : UploaderInv u) (hop : u.operation = some op)
    (hcase : op.stage = .reconfirming pending) (artifact : ArtifactResponse) :
    UploaderInv (u.confirmed op pending (fun u => u.ends op) artifact) := by
  obtain ⟨hrun, hholds⟩ := h.at_stage hop hcase
  have hholds : Holds u op pending := hholds
  unfold Uploader.confirmed
  split
  · exact UploaderInv.ends_error hrun hholds.1 _
  · rename_i hcanc
    have hfiles := complete_files hholds (hholds.pending_eq hcanc)
    exact UploaderInv.ends_ok hrun hfiles rfl rfl

theorem uploader_of_some {res : Uploader × Option Request}
    (h : some res = some (u', request)) : u' = res.1 :=
  (congrArg Prod.fst (Option.some.inj h)).symm

theorem UploaderInv.resumes {res : Except UploadError ArtifactResponse} (h : UploaderInv u)
    (hop : u.operation = some op) (hcase : op.stage = .finished res) :
    UploaderInv (u.resumes op res) := by
  obtain ⟨-, hfiles, hok⟩ := h.at_stage hop hcase
  have hidle : ∀ u' : Uploader, u'.isRunning = false → u'.operation = none → Settled u' →
      UploaderInv u' := by
    intro u' hrun hnone hsetl
    refine ⟨by simp [hrun, hnone], fun _ => hsetl, ?_⟩
    intro op' hsome
    rw [hnone] at hsome
    cases hsome
  have habandon : UploaderInv (abandon { u with operation := none, isRunning := false }) := by
    refine hidle _ ?_ ?_ (settled_abandon hfiles)
    all_goals
      unfold Uploader.abandon
      dsimp only
      split
      all_goals rfl
  unfold Uploader.resumes
  dsimp only
  cases res with
  | ok artifact =>
    dsimp only
    split
    · exact habandon
    · obtain ⟨hpend, hst⟩ := hok artifact rfl
      refine hidle _ rfl rfl ⟨hfiles, ?_⟩
      rcases hst with hst | hst
      all_goals simp [hst, hpend]
  | error error =>
    dsimp only
    split
    · exact habandon
    · refine hidle _ rfl rfl ⟨hfiles, ?_⟩
      cases hpend : u.pending with
      | none => simp
      | some pending => simp

theorem UploaderInv.fails (h : UploaderInv u) (hop : u.operation = some op) (error : UploadError)
    (hact : advance u op (.fails error) = some (u', request)) : UploaderInv u' := by
  simp only [advance] at hact
  split at hact
  · rename_i hcase
    cases hact
    obtain ⟨hrun, hpend, hfiles⟩ := h.at_stage hop hcase
    refine UploaderInv.ends_error hrun ?_ error
    simp [hfiles, pendingFiles, hpend]
  · rename_i hcase
    cases hact
    obtain ⟨hrun, hpend, hfiles⟩ := h.at_stage hop hcase
    exact UploaderInv.leaves_error hrun hpend hfiles error
  · rename_i hcase
    obtain rfl := uploader_of_some hact
    exact h.uploadFailed hop hcase error
  · rename_i pending hcase
    cases hact
    obtain ⟨hrun, hholds⟩ := h.at_stage hop hcase
    have hholds : Holds u op pending := hholds
    exact hholds.leaves_error hrun error
  · rename_i pending hcase
    cases hact
    obtain ⟨hrun, hholds⟩ := h.at_stage hop hcase
    exact UploaderInv.ends_error hrun hholds.1 error
  · rename_i pending hcase
    cases hact
    obtain ⟨hrun, hholds⟩ := h.at_stage hop hcase
    exact UploaderInv.ends_error hrun hholds.1 error
  · cases hact
  · cases hact

theorem UploaderInv.advance (h : UploaderInv u) (hop : u.operation = some op)
    (hact : advance u op event = some (u', request)) : UploaderInv u' := by
  cases event with
  | begins =>
    simp only [Activities.advance] at hact
    split at hact
    · rename_i work hcase
      obtain rfl := uploader_of_some hact
      exact h.begins hop hcase
    · cases hact
  | staged originalFilename byteLength sha256 contentType idempotencyKey =>
    simp only [Activities.advance] at hact
    split at hact
    · rename_i hcase
      obtain rfl := uploader_of_some hact
      exact h.staged hop hcase _ _ _ _ _
    · cases hact
  | presigned response =>
    simp only [Activities.advance] at hact
    split at hact
    · rename_i hcase
      obtain rfl := uploader_of_some hact
      exact h.finish hop hcase response
    · rename_i hcase
      obtain rfl := uploader_of_some hact
      exact h.represigned hop hcase response
    · cases hact
  | uploaded =>
    simp only [Activities.advance] at hact
    split at hact
    · rename_i hcase
      obtain rfl := uploader_of_some hact
      exact h.uploaded hop hcase
    · cases hact
  | confirmed artifact =>
    simp only [Activities.advance] at hact
    split at hact
    · rename_i hcase
      obtain rfl := uploader_of_some hact
      exact h.confirmed hop hcase artifact
    · rename_i hcase
      obtain rfl := uploader_of_some hact
      exact h.reconfirmed hop hcase artifact
    · cases hact
  | fails error => exact h.fails hop error hact
  | resumes =>
    simp only [Activities.advance] at hact
    split at hact
    · rename_i hcase
      obtain rfl := uploader_of_some hact
      exact h.resumes hop hcase
    · cases hact
  | upload => cases hact
  | reconcile => cases hact
  | cancel => cases hact
  | cancelCaller => cases hact

theorem UploaderInv.act (h : UploaderInv u) (hprompt : Prompt u event)
    (hact : act u event = some (u', request)) : UploaderInv u' := by
  cases event with
  | upload activityId expectedVersion artifactClass callerCancelled =>
    cases hact
    exact h.upload activityId expectedVersion artifactClass callerCancelled
  | reconcile callerCancelled =>
    cases hact
    exact h.reconcile callerCancelled hprompt
  | cancel marked =>
    cases hact
    exact h.cancel marked
  | cancelCaller marked =>
    cases hact
    exact h.cancelCaller marked
  | _ =>
    obtain ⟨op, hop, hadvance⟩ := Option.bind_eq_some_iff.mp hact
    exact h.advance hop hadvance

end TamForge.Activities
