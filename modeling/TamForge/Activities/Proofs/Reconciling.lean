import TamForge.Activities.Proofs.Settling
import TamForge.Learning.Proofs.Uploads

/-!
# Uploads are reconciled

What the server answered to a request stays what it answers.  A confirmation that
is pending was offered by a presign whose intent the server keeps, so a
reconciliation asks for that confirmation and no other artifact.
-/

namespace TamForge.Activities

open Learning Learning.ActivityService ProofSupport Uploader

variable {ownerId : Nat} {w : World} {db after : Db} {request : Request}
  {response : Response} {op : Operation} {pending : PendingConfirmation} {event : Event}
  {artifact : ArtifactResponse}

/-! ## Answers -/

def AnsweredBy (db : Db) (ownerId : Nat) (request : Request) (response : Response) : Prop :=
  if request.1.scope = .artifactPresign then
    ∃ intent store result, IntentKept db ownerId request.1 request.2 intent ∧
      response = .presign result ∧ presignResponse store intent = .ok result
  else Kept db ownerId request.1 request.2 response

def Offered (db : Db) (ownerId : Nat) (command : PresignCommand) : Prop :=
  ∃ intent upload, IntentKept db ownerId command.request.1 command.request.2 intent ∧
    intent.reused = false ∧ uploadIntent intent = .ok upload

def ConfirmedAs (db : Db) (ownerId : Nat) (pending : PendingConfirmation)
    (artifact : ArtifactResponse) : Prop :=
  Kept db ownerId pending.confirm.request.1 pending.confirm.request.2 (.artifact artifact)

theorem AnsweredBy.appends (h : AnsweredBy db ownerId request response)
    (happs : Appends db after) : AnsweredBy after ownerId request response := by
  unfold AnsweredBy at h ⊢
  split at h
  · rename_i hscope
    rw [if_pos hscope]
    obtain ⟨intent, store, result, hkept, hans⟩ := h
    exact ⟨intent, store, result, hkept.appends happs, hans⟩
  · rename_i hscope
    rw [if_neg hscope]
    exact h.appends happs

theorem Offered.appends {command : PresignCommand} (h : Offered db ownerId command)
    (happs : Appends db after) : Offered after ownerId command := by
  obtain ⟨intent, upload, hkept, hoffer⟩ := h
  exact ⟨intent, upload, hkept.appends happs, hoffer⟩

theorem execute_answered {env : Env}
    (h : (execute env db ownerId request.1 request.2).1 = .ok response) :
    AnsweredBy (execute env db ownerId request.1 request.2).2 ownerId request response := by
  have hrun := execute_ok h
  unfold AnsweredBy
  split
  · rename_i hscope
    obtain ⟨intent, store, result, hans⟩ := run_presign hscope hrun
    exact ⟨intent, store, result, hans⟩
  · rename_i hscope
    exact (run_kept hscope hrun).2.1

theorem AnsweredBy.offered {command : PresignCommand} {res : ArtifactPresignResponse}
    (h : AnsweredBy db ownerId command.request (.presign res)) (hupload : res.upload ≠ none) :
    Offered db ownerId command := by
  obtain ⟨intent, store, _, hkept, ⟨⟩, hres⟩ := h
  unfold presignResponse at hres
  split at hres
  · cases hres
    exact absurd rfl hupload
  · rename_i hreused
    simp only [bind_ok_iff] at hres
    obtain ⟨upload, hintent, -⟩ := hres
    exact ⟨intent, upload, hkept, by simpa using hreused, hintent⟩

theorem AnsweredBy.not_reused {command : PresignCommand} {res : ArtifactPresignResponse}
    (h : AnsweredBy db ownerId command.request (.presign res))
    (hoffered : Offered db ownerId command) : res.artifactId = none := by
  obtain ⟨intent, store, _, hkept, ⟨⟩, hres⟩ := h
  obtain ⟨intent', upload, hkept', hreused, -⟩ := hoffered
  obtain rfl := hkept'.unique hkept
  unfold presignResponse at hres
  rw [hreused] at hres
  simp only [Bool.false_eq_true, if_false, bind_ok_iff] at hres
  obtain ⟨_, -, _, -, hres⟩ := hres
  cases hres
  rfl

/-! ## The invariant -/

structure Confirmable (db : Db) (ownerId : Nat) (pending : PendingConfirmation) : Prop where
  offered : Offered db ownerId pending.presign
  activity : pending.confirm.activityId = pending.presign.activityId

theorem Confirmable.appends (h : Confirmable db ownerId pending) (happs : Appends db after) :
    Confirmable after ownerId pending :=
  ⟨h.offered.appends happs, h.activity⟩

def AwaitInv (ownerId : Nat) (db : Db) (sent : List Request) (op : Operation) : Prop :=
  match op.stage with
  | .created (.upload _ _ _) | .staging _ _ _ => op.confirmation = none
  | .presigning _ command _ => op.confirmation = none ∧ sent.getLast? = some command.request
  | .uploading _ command _ _ => op.confirmation = none ∧ Offered db ownerId command
  | .created (.reconcile pending) =>
    op.confirmation = some pending ∧ Confirmable db ownerId pending
  | .represigning pending => op.confirmation = some pending ∧ Confirmable db ownerId pending ∧
      sent.getLast? = some pending.presign.request
  | .confirming pending | .reconfirming pending => op.confirmation = some pending ∧
      Confirmable db ownerId pending ∧ sent.getLast? = some pending.confirm.request
  | .finished result => ∀ artifact pending, result = .ok artifact →
      op.confirmation = some pending → ConfirmedAs db ownerId pending artifact

structure WorldInv (ownerId : Nat) (w : World) : Prop where
  uploader : UploaderInv w.uploader
  server : OneEach w.db
  answers : ∀ number response, (number, response) ∈ w.answers → ∃ request,
    w.sent[number]? = some request ∧ AnsweredBy w.db ownerId request response
  pending : ∀ pending, w.uploader.pending = some pending → Confirmable w.db ownerId pending
  await : ∀ op, w.uploader.operation = some op → AwaitInv ownerId w.db w.sent op

theorem WorldInv.new {start : Db} (harts : start.artifacts.rows = [])
    (hlinks : start.links.rows = []) : WorldInv ownerId (World.new start) where
  uploader := UploaderInv.new
  server :=
    ⟨by simp [World.new, artifactsOf, harts], by simp [World.new, pendingLinks, hlinks]⟩
  answers := by simp [World.new]
  pending := by simp [World.new, Uploader.new]
  await := by simp [World.new, Uploader.new]

theorem AwaitInv.appends {sent : List Request} (h : AwaitInv ownerId db sent op)
    (happs : Appends db after) : AwaitInv ownerId after sent op := by
  unfold AwaitInv at h ⊢
  cases hcase : op.stage with
  | created work =>
    rw [hcase] at h
    cases work with
    | upload activityId expectedVersion artifactClass => exact h
    | reconcile pending => exact ⟨h.1, h.2.appends happs⟩
  | staging activityId expectedVersion artifactClass =>
    rw [hcase] at h
    exact h
  | presigning copy command mayRefresh =>
    rw [hcase] at h
    exact h
  | uploading copy command objectKey mayRefresh =>
    rw [hcase] at h
    exact ⟨h.1, h.2.appends happs⟩
  | confirming pending =>
    rw [hcase] at h
    exact ⟨h.1, h.2.1.appends happs, h.2.2⟩
  | represigning pending =>
    rw [hcase] at h
    exact ⟨h.1, h.2.1.appends happs, h.2.2⟩
  | reconfirming pending =>
    rw [hcase] at h
    exact ⟨h.1, h.2.1.appends happs, h.2.2⟩
  | finished result =>
    rw [hcase] at h
    intro artifact pending hres hconf
    exact Kept.appends (h artifact pending hres hconf) happs

/-! ## The server -/

theorem WorldInv.server_step {event : ActivityService.Event} (h : WorldInv ownerId w)
    (hstep : ActivityService.Step w.db event after) : WorldInv ownerId { w with db := after } where
  uploader := h.uploader
  server := h.server.step hstep
  answers := by
    intro number response hans
    obtain ⟨request, hsent, hanswered⟩ := h.answers number response hans
    exact ⟨request, hsent, hanswered.appends hstep.appends⟩
  pending := fun pending hpend => (h.pending pending hpend).appends hstep.appends
  await := fun op hop => (h.await op hop).appends hstep.appends

theorem execute_appends (env : Env) (db : Db) (ownerId : Nat) (request : Request) :
    Appends db (execute env db ownerId request.1 request.2).2 :=
  (execute_grows env db ownerId request.1 request.2).receipts

variable {number : Nat}

theorem WorldInv.serve (h : WorldInv ownerId w) (env : Env) (hsent : w.sent[number]? = some request)
    : WorldInv ownerId (w.serve ownerId number request env) := by
  have happs := execute_appends env w.db ownerId request
  refine ⟨h.uploader, h.server.execute _ _ _ _, ?_, ?_, ?_⟩
  · intro number' response hans
    have hold : ∀ response, (number', response) ∈ w.answers → ∃ request',
        w.sent[number']? = some request' ∧
          AnsweredBy (execute env w.db ownerId request.1 request.2).2 ownerId request'
            response := by
      intro response hmem
      obtain ⟨request', hsent', hanswered⟩ := h.answers number' response hmem
      exact ⟨request', hsent', hanswered.appends happs⟩
    simp only [World.serve] at hans
    split at hans
    · rename_i result hres
      rcases List.mem_append.mp hans with hmem | hnew
      · exact hold response hmem
      · cases List.mem_singleton.mp hnew
        exact ⟨request, hsent, execute_answered hres⟩
    · exact hold response hans
  · intro pending hpend
    exact (h.pending pending hpend).appends happs
  · intro op hop
    exact (h.await op hop).appends happs

/-! ## The uploader -/

theorem WorldInv.answered_last (h : WorldInv ownerId w) (hlen : w.sent.length = number + 1)
    (hlast : w.sent.getLast? = some request) (hans : (number, response) ∈ w.answers) :
    AnsweredBy w.db ownerId request response := by
  obtain ⟨request', hsent, hanswered⟩ := h.answers number response hans
  rw [List.getLast?_eq_getElem?, hlen, Nat.add_sub_cancel, hsent] at hlast
  cases hlast
  exact hanswered

/-- What an event leaves: the operation awaits what it just sent, and what is
pending can be confirmed. -/
structure Leaves (ownerId : Nat) (w : World) (result : Uploader × Option Request) : Prop where
  pending : ∀ pending, result.1.pending = some pending → Confirmable w.db ownerId pending
  await : ∀ op, result.1.operation = some op →
    AwaitInv ownerId w.db (w.sent ++ result.2.toList) op

variable {u : Uploader} {stage : Stage}

theorem Leaves.goOn {sent : Option Request}
    (hpend : ∀ pending, u.pending = some pending → Confirmable w.db ownerId pending)
    (hawait : AwaitInv ownerId w.db (w.sent ++ sent.toList) { op with stage := stage }) :
    Leaves ownerId w (u.goOn op stage, sent) where
  pending := hpend
  await := by
    rintro op' ⟨⟩
    exact hawait

theorem Leaves.ends_error
    (hpend : ∀ pending, u.pending = some pending → Confirmable w.db ownerId pending)
    (error : UploadError) : Leaves ownerId w (u.ends op (.error error), none) :=
  Leaves.goOn hpend (by rintro artifact pending ⟨⟩)

theorem leaves_cases (u : Uploader) (op : Operation) (copy : StagedFile)
    (result : Except UploadError ArtifactResponse) :
    ∃ files, u.leaves op copy result = ends { u with files := files } op result := by
  unfold Uploader.leaves
  split
  · exact ⟨u.files, rfl⟩
  · exact ⟨_, rfl⟩

theorem Leaves.leaves_error {copy : StagedFile}
    (hpend : ∀ pending, u.pending = some pending → Confirmable w.db ownerId pending)
    (error : UploadError) : Leaves ownerId w (u.leaves op copy (.error error), none) := by
  obtain ⟨files, hleaves⟩ := leaves_cases u op copy (.error error)
  rw [hleaves]
  exact Leaves.ends_error (u := { u with files := files }) hpend error

section Events

variable {activityId expectedVersion : Nat} {artifactClass : ArtifactClass} {copy : StagedFile}
  {command : PresignCommand} {objectKey : String} {mayRefresh : Bool}

theorem WorldInv.at_stage (h : WorldInv ownerId w) (hop : w.uploader.operation = some op)
    (hstage : op.stage = stage) : AwaitInv ownerId w.db w.sent { op with stage := stage } := by
  rw [← hstage]
  exact h.await op hop

theorem WorldInv.begins {work : Work} (h : WorldInv ownerId w)
    (hop : w.uploader.operation = some op) (hcase : op.stage = .created work) :
    Leaves ownerId w (w.uploader.begins op work) := by
  have hawait := h.at_stage hop hcase
  unfold Uploader.begins
  split
  · exact Leaves.ends_error h.pending _
  · cases work with
    | upload activityId expectedVersion artifactClass => exact Leaves.goOn h.pending hawait
    | reconcile pending =>
      exact Leaves.goOn h.pending ⟨hawait.1, hawait.2, by simp⟩

theorem WorldInv.staged (h : WorldInv ownerId w) (hop : w.uploader.operation = some op)
    (hcase : op.stage = .staging activityId expectedVersion artifactClass)
    (filename : String) (byteLength : Nat) (sha256 contentType idempotencyKey : String) :
    Leaves ownerId w (w.uploader.staged op activityId expectedVersion artifactClass
      filename byteLength sha256 contentType idempotencyKey) := by
  have hawait : op.confirmation = none := h.at_stage hop hcase
  unfold Uploader.staged
  dsimp only
  split
  · exact Leaves.leaves_error (u := { w.uploader with
      files := w.uploader.nextFile :: w.uploader.files
      nextFile := w.uploader.nextFile + 1 }) h.pending _
  · exact Leaves.goOn (u := { w.uploader with
      files := w.uploader.nextFile :: w.uploader.files
      nextFile := w.uploader.nextFile + 1 }) h.pending ⟨hawait, by simp⟩

/-- An artifact that is returned without a confirmation is about none; an upload
that is begun was offered. -/
theorem WorldInv.finish {res : ArtifactPresignResponse} (h : WorldInv ownerId w)
    (hop : w.uploader.operation = some op) (hcase : op.stage = .presigning copy command mayRefresh)
    (hlen : w.sent.length = number + 1) (hans : (number, .presign res) ∈ w.answers) :
    Leaves ownerId w (w.uploader.finish op copy command mayRefresh res, none) := by
  obtain ⟨hnone, hlast⟩ := h.at_stage hop hcase
  unfold Uploader.finish
  split
  · exact Leaves.leaves_error h.pending _
  · split
    · obtain ⟨files, hleaves⟩ := leaves_cases { w.uploader with state := .complete } op copy
        (.ok (artifactFrom copy _ command.artifactClass))
      rw [hleaves]
      refine Leaves.goOn (u := { w.uploader with state := .complete, files := files }) h.pending ?_
      intro artifact pending _ hsome
      rw [show op.confirmation = some pending from hsome] at hnone
      cases hnone
    · split
      · exact Leaves.leaves_error h.pending _
      · rename_i hupload
        have hoffered := (h.answered_last hlen hlast hans).offered
          (by rw [hupload]; exact Option.some_ne_none _)
        exact Leaves.goOn (u := { w.uploader with state := .uploading }) h.pending ⟨hnone, hoffered⟩

theorem WorldInv.uploaded (h : WorldInv ownerId w) (hop : w.uploader.operation = some op)
    (hcase : op.stage = .uploading copy command objectKey mayRefresh) :
    Leaves ownerId w (w.uploader.uploaded op copy command objectKey) := by
  obtain ⟨-, hoffered⟩ := h.at_stage hop hcase
  unfold Uploader.uploaded
  split
  · exact Leaves.leaves_error h.pending _
  · have hconfirmable : Confirmable w.db ownerId ⟨copy, command, ⟨command.activityId,
        command.expectedVersion, command.idempotencyKey, objectKey, command.idempotencyKey⟩⟩ :=
      ⟨hoffered, rfl⟩
    refine ⟨?_, ?_⟩
    · rintro pending ⟨⟩
      exact hconfirmable
    · rintro op' ⟨⟩
      exact ⟨rfl, hconfirmable, by simp⟩

theorem WorldInv.uploadFailed (h : WorldInv ownerId w) (hop : w.uploader.operation = some op)
    (hcase : op.stage = .uploading copy command objectKey mayRefresh) (error : UploadError) :
    Leaves ownerId w (w.uploader.uploadFailed op copy command mayRefresh error) := by
  obtain ⟨hnone, -⟩ := h.at_stage hop hcase
  unfold Uploader.uploadFailed
  split
  · split
    · exact Leaves.leaves_error h.pending _
    · exact Leaves.goOn h.pending ⟨hnone, by simp⟩
  · exact Leaves.leaves_error h.pending _

theorem WorldInv.represigned {res : ArtifactPresignResponse} (h : WorldInv ownerId w)
    (hop : w.uploader.operation = some op) (hcase : op.stage = .represigning pending)
    (hlen : w.sent.length = number + 1) (hans : (number, .presign res) ∈ w.answers) :
    Leaves ownerId w (w.uploader.represigned op pending res) := by
  obtain ⟨hconf, hconfirmable, hlast⟩ := h.at_stage hop hcase
  have hart := (h.answered_last hlen hlast hans).not_reused hconfirmable.offered
  unfold Uploader.represigned
  split
  · exact Leaves.ends_error h.pending _
  · rw [hart]
    exact Leaves.goOn h.pending ⟨hconf, hconfirmable, by simp⟩

theorem WorldInv.confirmed (h : WorldInv ownerId w)
    (hlast : w.sent.getLast? = some pending.confirm.request)
    (hconf : op.confirmation = some pending) (hlen : w.sent.length = number + 1)
    (hans : (number, .artifact artifact) ∈ w.answers)
    {ends : Uploader → Except UploadError ArtifactResponse → Uploader}
    (hends : ∀ u res, ∃ files, ends u res = Uploader.ends { u with files := files } op res)
    : Leaves ownerId w (w.uploader.confirmed op pending ends artifact, none) := by
  unfold Uploader.confirmed
  split
  · obtain ⟨files, heq⟩ := hends w.uploader (.error .cancelled)
    rw [heq]
    exact Leaves.ends_error (u := { w.uploader with files := files }) h.pending _
  · obtain ⟨files, heq⟩ := hends (w.uploader.complete pending) (.ok artifact)
    rw [heq]
    refine ⟨?_, ?_⟩
    · rintro pending' ⟨⟩
    · rintro op' ⟨⟩ artifact' pending' ⟨⟩ hsome
      rw [show op.confirmation = some pending' from hsome] at hconf
      cases hconf
      exact h.answered_last hlen hlast hans

theorem WorldInv.fails {result : Uploader × Option Request} (h : WorldInv ownerId w)
    (hop : w.uploader.operation = some op) (error : UploadError)
    (hact : advance w.uploader op (.fails error) = some result) : Leaves ownerId w result := by
  simp only [advance] at hact
  split at hact
  all_goals cases hact
  · exact Leaves.ends_error h.pending error
  · exact Leaves.leaves_error h.pending error
  · rename_i hcase
    exact h.uploadFailed hop hcase error
  · exact Leaves.leaves_error h.pending error
  · exact Leaves.ends_error h.pending error
  · exact Leaves.ends_error h.pending error

theorem abandon_operation (u : Uploader) : u.abandon.operation = u.operation := by
  unfold Uploader.abandon
  split
  all_goals rfl

theorem resumes_operation (u : Uploader) (op : Operation)
    (res : Except UploadError ArtifactResponse) : (u.resumes op res).operation = none := by
  unfold Uploader.resumes
  dsimp only
  cases res with
  | ok artifact =>
    dsimp only
    split
    · rw [abandon_operation]
    · rfl
  | error error =>
    dsimp only
    split
    · rw [abandon_operation]
    · rfl

theorem resumes_pending {op : Operation} {res : Except UploadError ArtifactResponse}
    {pending : PendingConfirmation} (h : (u.resumes op res).pending = some pending) :
    u.pending = some pending := by
  unfold Uploader.resumes at h
  dsimp only at h
  cases res with
  | ok artifact =>
    dsimp only at h
    split at h
    · cases h
    · exact h
  | error error =>
    dsimp only at h
    split at h
    · cases h
    · exact h

theorem WorldInv.advance {result : Uploader × Option Request} (h : WorldInv ownerId w)
    (hanswered : Answered w event) (hop : w.uploader.operation = some op)
    (hact : advance w.uploader op event = some result) : Leaves ownerId w result := by
  cases event with
  | begins =>
    simp only [Activities.advance] at hact
    split at hact
    · rename_i hcase
      obtain rfl := Option.some.inj hact
      exact h.begins hop hcase
    · cases hact
  | staged originalFilename byteLength sha256 contentType idempotencyKey =>
    simp only [Activities.advance] at hact
    split at hact
    · rename_i hcase
      obtain rfl := Option.some.inj hact
      exact h.staged hop hcase _ _ _ _ _
    · cases hact
  | presigned response =>
    obtain ⟨number, hlen, hans⟩ := hanswered
    simp only [Activities.advance] at hact
    split at hact
    · rename_i hcase
      obtain rfl := Option.some.inj hact
      exact h.finish hop hcase hlen hans
    · rename_i hcase
      obtain rfl := Option.some.inj hact
      exact h.represigned hop hcase hlen hans
    · cases hact
  | uploaded =>
    simp only [Activities.advance] at hact
    split at hact
    · rename_i hcase
      obtain rfl := Option.some.inj hact
      exact h.uploaded hop hcase
    · cases hact
  | confirmed artifact =>
    obtain ⟨number, hlen, hans⟩ := hanswered
    simp only [Activities.advance] at hact
    split at hact
    · rename_i pending hcase
      obtain rfl := Option.some.inj hact
      obtain ⟨hconf, -, hlast⟩ := h.at_stage hop hcase
      exact h.confirmed hlast hconf hlen hans
        fun u result => leaves_cases u op pending.staged result
    · rename_i pending hcase
      obtain rfl := Option.some.inj hact
      obtain ⟨hconf, -, hlast⟩ := h.at_stage hop hcase
      exact h.confirmed hlast hconf hlen hans fun u result => ⟨u.files, rfl⟩
    · cases hact
  | fails error => exact h.fails hop error hact
  | resumes =>
    simp only [Activities.advance] at hact
    split at hact
    · obtain rfl := Option.some.inj hact
      refine ⟨fun pending hpend => h.pending pending (resumes_pending hpend), ?_⟩
      intro op' hsome
      rw [resumes_operation] at hsome
      cases hsome
    · cases hact
  | upload => cases hact
  | reconcile => cases hact
  | cancel => cases hact
  | cancelCaller => cases hact

end Events

end TamForge.Activities
