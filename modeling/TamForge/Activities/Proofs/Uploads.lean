import TamForge.Activities.Proofs.Reconciling

/-!
# Uploads settle cleanly

Every run of the uploader against the server, in which no reconciliation is asked
for by a task that was cancelled before.  One such reconciliation forgets that a
confirmation is pending.
-/

namespace TamForge.Activities

open Learning Learning.ActivityService ProofSupport

variable {ownerId : Nat} {w w' : World} {action : Action} {op : Operation} {event : Event}
  {trace : List (Transition World Action)}

/-! ## Calls -/

variable {u : Uploader}

theorem Leaves.of_same (h : WorldInv ownerId w) (hpend : u.pending = w.uploader.pending)
    (hop : u.operation = w.uploader.operation) :
    Leaves ownerId w (u, none) where
  pending := by
    intro pending hsome
    exact h.pending pending (hpend.symm.trans hsome)
  await := by
    intro op hsome
    simpa using h.await op (hop.symm.trans hsome)

theorem AwaitInv.flags {db : Db} {sent : List Request} {op' : Operation}
    (h : AwaitInv ownerId db sent op) (hstage : op'.stage = op.stage)
    (hconf : op'.confirmation = op.confirmation) : AwaitInv ownerId db sent op' := by
  unfold AwaitInv at h ⊢
  rw [hstage, hconf]
  exact h

theorem WorldInv.upload (h : WorldInv ownerId w) (activityId expVer : Nat)
    (artifactClass : ArtifactClass) (cancelled : Bool) :
    Leaves ownerId w
      (w.uploader.upload activityId expVer artifactClass cancelled, none) := by
  unfold Uploader.upload
  split
  · exact Leaves.of_same h rfl rfl
  · cases cancelled with
    | true => exact Leaves.of_same h rfl rfl
    | false =>
      refine ⟨h.pending, ?_⟩
      rintro op ⟨⟩
      rfl

theorem WorldInv.reconcile (h : WorldInv ownerId w) (cancelled : Bool) :
    Leaves ownerId w (w.uploader.reconcile cancelled, none) := by
  unfold Uploader.reconcile
  cases hpend : w.uploader.pending with
  | none => exact Leaves.of_same h rfl rfl
  | some pending =>
    dsimp only
    split
    · exact Leaves.of_same h rfl rfl
    · cases cancelled with
      | true => exact Leaves.of_same h rfl rfl
      | false =>
        refine ⟨h.pending, ?_⟩
        rintro op ⟨⟩
        exact ⟨rfl, h.pending pending hpend⟩

theorem WorldInv.cancel (h : WorldInv ownerId w) (marked : Bool) :
    Leaves ownerId w (w.uploader.cancel marked, none) := by
  rw [cancel_eq]
  refine ⟨?_, ?_⟩
  · rintro pending ⟨⟩
  · intro op' hsome
    obtain ⟨op, hop, rfl⟩ := Option.map_eq_some_iff.mp hsome
    simp only [Option.toList_none, List.append_nil]
    exact (h.await op hop).flags rfl rfl

theorem WorldInv.cancelCaller (h : WorldInv ownerId w) (marked : Bool) :
    Leaves ownerId w (w.uploader.cancelCaller marked, none) := by
  refine ⟨h.pending, ?_⟩
  intro op' hsome
  obtain ⟨op, hop, rfl⟩ := Option.map_eq_some_iff.mp hsome
  simp only [Option.toList_none, List.append_nil]
  exact (h.await op hop).flags rfl rfl

theorem WorldInv.act {result : Uploader × Option Request} (h : WorldInv ownerId w)
    (hans : Answered w event) (hact : act w.uploader event = some result) :
    Leaves ownerId w result := by
  cases event with
  | upload activityId expectedVersion artifactClass callerCancelled =>
    cases hact
    exact h.upload activityId expectedVersion artifactClass callerCancelled
  | reconcile callerCancelled =>
    cases hact
    exact h.reconcile callerCancelled
  | cancel marked =>
    cases hact
    exact h.cancel marked
  | cancelCaller marked =>
    cases hact
    exact h.cancelCaller marked
  | _ =>
    obtain ⟨op, hop, hadvance⟩ := Option.bind_eq_some_iff.mp hact
    exact h.advance hans hop hadvance

/-- No reconciliation is asked for by a task that was cancelled before. -/
def Timely (e : Transition World Action) : Prop :=
  ∀ event, e.label = .client event → Prompt e.before.uploader event

theorem WorldInv.step (h : WorldInv ownerId w) (hstep : Step ownerId w action w')
    (htimely : Timely ⟨w, action, w'⟩) : WorldInv ownerId w' := by
  cases hstep with
  | @client event uploader request hact hanswered =>
    have hleaves := h.act hanswered hact
    refine ⟨h.uploader.act (htimely event rfl) hact, h.server, ?_, hleaves.pending,
      hleaves.await⟩
    intro num response hans
    obtain ⟨request', hsent, hkept⟩ := h.answers num response hans
    obtain ⟨hlt, -⟩ := List.getElem?_eq_some_iff.mp hsent
    exact ⟨request', by rw [List.getElem?_append_left hlt]; exact hsent, hkept⟩
  | serve env hsent => exact h.serve env hsent
  | server hsrv => exact h.server_step hsrv

/-! ## What a run keeps -/

/-- `run` returns an artifact. -/
structure Returns (e : Transition World Action) (op : Operation) (artifact : ArtifactResponse) :
    Prop where
  label : e.label = .client .resumes
  operation : e.before.uploader.operation = some op
  result : op.stage = .finished (.ok artifact)
  caller : op.callerCancelled = false

structure Uploaded (ownerId : Nat) (e : Transition World Action) : Prop where
  /-- A call that returned an artifact left nothing pending. -/
  nothing : ∀ op artifact, Returns e op artifact → e.after.uploader.pending = none
  /-- It returned what the confirmation took effect with, and that is one artifact. -/
  artifact : ∀ op artifact pending, Returns e op artifact → op.confirmation = some pending →
    ConfirmedAs e.after.db ownerId pending artifact ∧
      ∀ other, ConfirmedAs e.after.db ownerId pending other → other = artifact
  /-- What took effect once stays. -/
  kept : ∀ pending artifact, ConfirmedAs e.before.db ownerId pending artifact →
    ConfirmedAs e.after.db ownerId pending artifact

/-- Once the confirmation took effect, a reconciliation that the server answers
while the activity is active or paused returns its artifact. -/
def Reconcilable (ownerId : Nat) (w : World) : Prop :=
  ∀ pending artifact env store, w.uploader.isRunning = false →
    w.uploader.pending = some pending → ConfirmedAs w.db ownerId pending artifact →
    env.store = some store → (∀ intent, ∃ signed, store.presignPut intent = .ok signed) →
    (∃ row, w.db.load ownerId pending.presign.activityId = .ok row ∧
      (row.activity.state = .active ∨ row.activity.state = .paused)) →
    ∃ trace e op response, Run (Step ownerId) w (trace ++ [e]) e.after ∧
      (trace ++ [e]).map Transition.label = [.client (.reconcile false), .client .begins,
        .serve w.sent.length env, .client (.presigned response),
        .serve (w.sent.length + 1) env, .client (.confirmed artifact), .client .resumes] ∧
      Returns e op artifact ∧ e.after.uploader.pending = none ∧
        e.after.uploader.state = .complete ∧ e.after.db = w.db

theorem Step.appends (hstep : Step ownerId w action w') : Appends w.db w'.db := by
  cases hstep with
  | client hact hans => exact ⟨[], (List.append_nil _).symm⟩
  | serve env hsent => exact execute_appends env w.db ownerId _
  | server hsrv => exact hsrv.appends

variable {artifact : ArtifactResponse}

theorem step_resumes (hstep : Step ownerId w (.client .resumes) w')
    (hop : w.uploader.operation = some op) (hres : op.stage = .finished (.ok artifact))
    (hcaller : op.callerCancelled = false) :
    w'.uploader.pending = w.uploader.pending ∧ w'.db = w.db := by
  cases hstep with
  | client hact hans =>
    simp only [act, hop, Option.bind_some, advance, hres, Uploader.resumes, hcaller] at hact
    cases hact
    exact ⟨rfl, rfl⟩

theorem WorldInv.uploaded_step (h : WorldInv ownerId w) (hstep : Step ownerId w action w') :
    Uploaded ownerId ⟨w, action, w'⟩ where
  nothing := by
    rintro op artifact ⟨⟨⟩, hop, hres, hcaller⟩
    rw [(step_resumes hstep hop hres hcaller).1]
    have hstage := h.uploader.stage op hop
    unfold StageInv at hstage
    rw [hres] at hstage
    exact (hstage.2 artifact rfl).1
  artifact := by
    rintro op artifact pending ⟨⟨⟩, hop, hres, hcaller⟩ hconf
    rw [(step_resumes hstep hop hres hcaller).2]
    have hawait := h.await op hop
    unfold AwaitInv at hawait
    rw [hres] at hawait
    have hconfd := hawait artifact pending rfl hconf
    refine ⟨hconfd, ?_⟩
    intro other ho
    have hsame : Response.artifact other = .artifact artifact := Kept.unique hconfd ho
    cases hsame
    rfl
  kept := fun pending artifact hconfd => Kept.appends hconfd hstep.appends

theorem WorldInv.replays {pending : PendingConfirmation} {env : Env} {store : ObjectStore}
    (h : WorldInv ownerId w) (hpend : w.uploader.pending = some pending)
    (hconfd : ConfirmedAs w.db ownerId pending artifact) (hstore : env.store = some store)
    (hsigns : ∀ intent, ∃ signed, store.presignPut intent = .ok signed)
    (hact : ∃ row, w.db.load ownerId pending.presign.activityId = .ok row ∧
      (row.activity.state = .active ∨ row.activity.state = .paused))
    :
    (∃ response, response.artifactId = none ∧
      execute env w.db ownerId pending.presign.request.1 pending.presign.request.2 =
        (.ok (.presign response), w.db)) ∧
      execute env w.db ownerId pending.confirm.request.1 pending.confirm.request.2 =
        (.ok (.artifact artifact), w.db) := by
  have hconfirmable := h.pending pending hpend
  obtain ⟨intent, upload, hkept, hreused, hintent⟩ := hconfirmable.offered
  obtain ⟨row, hload, hst⟩ := hact
  obtain ⟨signed, hsigned⟩ := hsigns upload
  constructor
  · refine ⟨⟨none, upload.objectKey, false, some signed⟩, rfl, ?_⟩
    refine execute_presign_replay rfl hstore hload hst hkept hreused ?_
    simp [presignResponse, hreused, hintent, hsigned, Except.mapError, bind, Except.bind, pure,
      Except.pure]
  · have hadm : admitted env pending.confirm.request.1 = .ok () := by
      simp [ConfirmCommand.request, admitted, requireObjectStore, hstore, bind, Except.bind, pure,
        Except.pure]
    have hloaded : w.db.load ownerId pending.confirm.request.1.activityId = .ok row := by
      rw [show pending.confirm.request.1.activityId = pending.confirm.activityId from rfl,
        hconfirmable.activity]
      exact hload
    have hrpl := execute_replay hconfd rfl (by simp [ConfirmCommand.request, Command.scope])
      hadm hloaded
    rw [hrpl, if_pos rfl]

theorem Step.quiet (ownerId : Nat) (w : World) (event : Event)
    (hact : act w.uploader event = some (u, none)) (hans : Answered w event) :
    Step ownerId w (.client event) { w with uploader := u } := by
  have hstep : Step ownerId w (.client event)
      { w with uploader := u, sent := w.sent ++ [] } := Step.client hact hans
  rw [List.append_nil] at hstep
  exact hstep

theorem Step.sends (ownerId : Nat) (w : World) (event : Event) {request : Request}
    (hact : act w.uploader event = some (u, some request)) (hans : Answered w event) :
    Step ownerId w (.client event) { w with uploader := u, sent := w.sent ++ [request] } :=
  Step.client hact hans

theorem Step.answers (ownerId : Nat) (w : World) (num : Nat) (request : Request) (env : Env)
    {response : Response} {after : Db} (hsent : w.sent[num]? = some request)
    (hexecute : execute env w.db ownerId request.1 request.2 = (.ok response, after)) :
    Step ownerId w (.serve num env)
      { w with db := after, answers := w.answers ++ [(num, response)] } := by
  have hstep := @Step.serve ownerId w num request env hsent
  unfold World.serve at hstep
  rw [hexecute] at hstep
  exact hstep

theorem WorldInv.reconcilable (h : WorldInv ownerId w) : Reconcilable ownerId w := by
  intro pending artifact env store hidle hpend hconfd hstore hsigns hact
  obtain ⟨⟨response, hnone, hpresign⟩, hconfirm⟩ :=
    h.replays hpend hconfd hstore hsigns hact
  obtain ⟨⟨state, isRunning, pending', operation, files, nextFile⟩, db, sent, answers⟩ := w
  obtain rfl : isRunning = false := hidle
  obtain rfl : pending' = some pending := hpend
  obtain ⟨artId, objectKey, reused, upload⟩ := response
  obtain rfl : artId = none := hnone
  have hrun := Run.single (Step.quiet ownerId
    ⟨⟨state, false, some pending, operation, files, nextFile⟩, db, sent, answers⟩
    (.reconcile false) rfl trivial)
  have hrun := hrun.snoc (Step.sends ownerId _ .begins rfl trivial)
  have hrun := hrun.snoc
    (Step.answers ownerId _ sent.length pending.presign.request env (by simp) hpresign)
  have hrun := hrun.snoc (Step.sends ownerId _ (.presigned ⟨none, objectKey, reused, upload⟩) rfl
    ⟨sent.length, by simp, by simp⟩)
  have hrun := hrun.snoc
    (Step.answers ownerId _ (sent.length + 1) pending.confirm.request env (by simp) hconfirm)
  have hrun := hrun.snoc (Step.quiet ownerId _ (.confirmed artifact) rfl
    ⟨sent.length + 1, by simp, by simp⟩)
  have hrun := hrun.snoc (Step.quiet ownerId _ .resumes rfl trivial)
  exact ⟨_, _, _, _, hrun, rfl, ⟨rfl, rfl, rfl, rfl⟩, rfl, rfl, rfl⟩

/-- Where every reconciliation is asked for in time, the uploader is settled
whenever nothing is running, every upload intent has led to one artifact and one
pending link at most, and what took effect is what is returned. -/
theorem upload_settles {start : Db} (hartifacts : start.artifacts.rows = [])
    (hlinks : start.links.rows = []) (hrun : Run (Step ownerId) (World.new start) trace w)
    (htimely : ∀ e ∈ trace, Timely e) :
    (w.uploader.isRunning = false → Settled w.uploader) ∧ OneEach w.db ∧
      Reconcilable ownerId w ∧ ∀ e ∈ trace, Uploaded ownerId e := by
  have key : (∀ e ∈ trace, Timely e) →
      WorldInv ownerId w ∧ ∀ e ∈ trace, Uploaded ownerId e := by
    refine hrun.invariant (I := fun trace w => (∀ e ∈ trace, Timely e) →
      WorldInv ownerId w ∧ ∀ e ∈ trace, Uploaded ownerId e) ?_ ?_
    · intro _
      exact ⟨WorldInv.new hartifacts hlinks, by simp⟩
    · intro trace w action w' ih hstep hall
      obtain ⟨hinv, huploaded⟩ := ih fun e he => hall e (List.mem_append_left _ he)
      refine ⟨hinv.step hstep (hall _ (by simp)), ?_⟩
      intro e he
      rcases List.mem_append.mp he with hearlier | hnew
      · exact huploaded e hearlier
      · rw [List.mem_singleton.mp hnew]
        exact hinv.uploaded_step hstep
  obtain ⟨hinv, huploaded⟩ := key htimely
  refine ⟨?_, hinv.server, hinv.reconcilable, huploaded⟩
  intro hidle
  refine hinv.uploader.idle ?_
  rw [hinv.uploader.running] at hidle
  simpa using hidle

/-! ## A confirmation without an answer -/

def sampleStarted : Db :=
  (execute (sampleCall 0 (.start 1 1) "start-1").env samplePlanned 1 (.start 1 1) "start-1").2

def sampleUpload : PresignedUpload where
  url := "https://storage.invalid/upload"
  headers := []
  expiresSeconds := 900

/-- An object store that signs every upload. -/
def sampleEnv : Env :=
  { (sampleCall 1 (.start 1 1) "start-1").env with
    store := some { stat := fun _ => .ok none, presignPut := fun _ => .ok sampleUpload } }

def samplePresign : PresignCommand where
  activityId := 1
  expectedVersion := 2
  artifactClass := .writtenOutput
  sha256 := "0123456789abcdef0123456789abcdef0123456789abcdef0123456789abcdef"
  byteLength := 5
  contentType := "text/plain"
  originalFilename := "answer.txt"
  idempotencyKey := "upload-1"

def samplePending : PendingConfirmation where
  staged := {
    fileURL := 0
    originalFilename := samplePresign.originalFilename
    byteLength := samplePresign.byteLength
    sha256 := samplePresign.sha256
    contentType := samplePresign.contentType }
  presign := samplePresign
  confirm := {
    activityId := 1
    expectedVersion := 2
    uploadIdempotencyKey := "upload-1"
    objectKey := buildObjectKey .writtenOutput 1 1 samplePresign.sha256
    idempotencyKey := "upload-1" }

theorem execute_samplePresign :
    (execute sampleEnv sampleStarted 1 samplePresign.request.1 samplePresign.request.2).1 =
      .ok (.presign ⟨none, samplePending.confirm.objectKey, false, some sampleUpload⟩) := by
  decide +kernel

theorem sample_pending :
    ∃ trace w, Run (Step 1) (World.new sampleStarted) trace w ∧ (∀ e ∈ trace, Timely e) ∧
      w.uploader = ⟨.confirmationIndeterminate, false, some samplePending, none, [0], 1⟩ := by
  have hrun := Run.single (Step.quiet 1 (World.new sampleStarted)
    (.upload 1 2 .writtenOutput false) rfl trivial)
  have hrun := hrun.snoc (Step.quiet 1 _ .begins rfl trivial)
  have hrun := hrun.snoc (Step.sends 1 _ (.staged samplePresign.originalFilename
    samplePresign.byteLength samplePresign.sha256 samplePresign.contentType "upload-1") rfl trivial)
  have hrun := hrun.snoc (Step.answers 1 _ 0 samplePresign.request sampleEnv rfl
    (Prod.ext execute_samplePresign rfl))
  have hrun := hrun.snoc (Step.quiet 1 _ (.presigned
    ⟨none, samplePending.confirm.objectKey, false, some sampleUpload⟩) rfl
    ⟨0, rfl, List.mem_singleton.mpr rfl⟩)
  have hrun := hrun.snoc (Step.sends 1 _ .uploaded rfl trivial)
  have hrun := hrun.snoc (Step.quiet 1 _ (.fails .failed) rfl trivial)
  have hrun := hrun.snoc (Step.quiet 1 _ .resumes rfl trivial)
  refine ⟨_, _, hrun, ?_, rfl⟩
  intro e he event hev
  simp only [List.mem_append, List.mem_singleton] at he
  rcases he with ((((((rfl | rfl) | rfl) | rfl) | rfl) | rfl) | rfl) | rfl
  all_goals
    cases hev
    try trivial

theorem upload_settles_sample :
    ∃ trace w, Run (Step 1) (World.new sampleStarted) trace w ∧
      w.uploader.pending = some samplePending ∧
        (w.uploader.isRunning = false → Settled w.uploader) ∧ OneEach w.db ∧
          Reconcilable 1 w ∧ ∀ e ∈ trace, Uploaded 1 e := by
  obtain ⟨trace, w, hrun, htimely, huploader⟩ := sample_pending
  exact ⟨trace, w, hrun, by rw [huploader], upload_settles rfl rfl hrun htimely⟩

/-- A reconciliation whose task was cancelled before: the state says that the
upload was cancelled, the confirmation and its copy are still there, and nothing
blocks another upload. -/
theorem reconcile_cancelled_unsettles :
    ∃ trace w, Run (Step 1) (World.new sampleStarted) trace w ∧
      w.uploader.isRunning = false ∧ ¬ Settled w.uploader ∧
        w.uploader.blocksMutations = false ∧ w.uploader.pending = some samplePending ∧
          w.uploader.files = [samplePending.staged.fileURL] := by
  obtain ⟨trace, w, hrun, -, huploader⟩ := sample_pending
  have hstep := Step.quiet 1 w (.reconcile true) rfl trivial
  refine ⟨_, _, hrun.snoc hstep, ?_, ?_, ?_, ?_, ?_⟩
  all_goals simp only [huploader]
  · rfl
  · intro hsettled
    have hstate := hsettled.state.mpr rfl
    cases hstate
  · rfl
  · rfl
  · rfl

end TamForge.Activities
