import TamForge.Learning.Proofs.Replays

/-!
# Uploads

What an upload intent leads to, whatever the server is asked to do: one artifact
of its digest at most, and one pending link to it.  A presign that succeeded once
is answered from the intent it kept.
-/

namespace TamForge.Learning.ActivityService

open Models ProofSupport

/-! ## Artifacts and pending links -/

def artifactsOf (db : Db) (ownerId : Nat) (sha256 : String) : List Artifact :=
  db.artifacts.rows.filter fun artifact =>
    artifact.ownerId = ownerId ∧ artifact.contentHash = sha256

def pendingLinks (db : Db) (ownerId activityId artifactId : Nat) : List ActivityArtifactLink :=
  db.links.rows.filter fun link => link.ownerId = ownerId ∧
    link.activityInstanceId = activityId ∧ link.attemptId = none ∧
      link.artifactId = artifactId ∧ link.linkRole = .supporting

/-- An intent is for one owner, activity and digest. -/
structure OneEach (db : Db) : Prop where
  artifact : ∀ ownerId sha256, (artifactsOf db ownerId sha256).length ≤ 1
  link : ∀ ownerId activityId artifactId,
    (pendingLinks db ownerId activityId artifactId).length ≤ 1

/-- Neither artifacts nor pending links are written. -/
structure Untouched (db after : Db) : Prop where
  artifacts : after.artifacts = db.artifacts
  links : ∀ ownerId activityId artifactId,
    pendingLinks after ownerId activityId artifactId = pendingLinks db ownerId activityId artifactId

theorem OneEach.untouched {db after : Db} (h : OneEach db) (hsame : Untouched db after) :
    OneEach after where
  artifact := by
    intro ownerId sha256
    unfold artifactsOf
    rw [hsame.artifacts]
    exact h.artifact ownerId sha256
  link := by
    intro ownerId activityId artId
    rw [hsame.links]
    exact h.link ownerId activityId artId

variable {store : ObjectStore}

section Handlers

variable {env : Env} {db after : Db} {ownerId expectedVersion : Nat} {key : String}
  {row : LockedActivity} {response : Response}

theorem Untouched.of_eq (harts : after.artifacts = db.artifacts)
    (hlinks : after.links = db.links) : Untouched db after := by
  refine ⟨harts, ?_⟩
  intro ownerId activityId artId
  rw [pendingLinks, hlinks, pendingLinks]

theorem Untouched.refl (db : Db) : Untouched db db :=
  Untouched.of_eq rfl rfl

theorem Untouched.trans {mid : Db} (h : Untouched db mid) (h' : Untouched mid after) :
    Untouched db after where
  artifacts := h'.artifacts.trans h.artifacts
  links := by
    intro ownerId activityId artId
    rw [h'.links, h.links]

theorem Untouched.writes : Writes Untouched where
  refl := Untouched.refl
  trans := Untouched.trans
  days := fun _ _ => Untouched.of_eq rfl rfl
  activities := fun _ _ => Untouched.of_eq rfl rfl
  timers := fun _ _ => Untouched.of_eq rfl rfl
  attempts := fun _ _ => Untouched.of_eq rfl rfl
  selfReviews := fun _ _ => Untouched.of_eq rfl rfl
  link := by
    intro db link htaken
    refine ⟨rfl, ?_⟩
    intro ownerId activityId artId
    simp [pendingLinks, Db.insertLink, Serial.insert, htaken]

/-! ## Presign and confirm -/

theorem OneEach.ensurePendingArtifactLink (h : OneEach db) (ownerId activityId artId : Nat) :
    OneEach (ActivityService.ensurePendingArtifactLink db ownerId activityId artId) := by
  unfold ActivityService.ensurePendingArtifactLink
  split
  · exact h
  · rename_i hnone
    refine ⟨h.artifact, ?_⟩
    intro owner act artifact
    have hgrown : ∀ link : ActivityArtifactLink, (link.ownerId = ownerId ∧
        link.activityInstanceId = activityId ∧ link.attemptId = none ∧
          link.artifactId = artId ∧ link.linkRole = .supporting) → link ∉ db.links.rows := by
      rintro link ⟨hlinkOwn, hact, hatt, hart, hrole⟩ hmem
      refine hnone (List.any_eq_true.mpr ⟨link, hmem, ?_⟩)
      simp [hlinkOwn, hact, hatt, hart, hrole]
    unfold pendingLinks Db.insertLink Serial.insert
    rw [List.filter_append, List.length_append]
    by_cases hsame : ownerId = owner ∧ activityId = act ∧ artId = artifact
    · obtain ⟨rfl, rfl, rfl⟩ := hsame
      have hnil : (db.links.rows.filter fun link => decide (link.ownerId = ownerId ∧
          link.activityInstanceId = activityId ∧ link.attemptId = none ∧
            link.artifactId = artId ∧ link.linkRole = .supporting)) = [] := by
        rw [List.filter_eq_nil_iff]
        intro link hmem hpend
        exact hgrown link (of_decide_eq_true hpend) hmem
      rw [hnil]
      simp
    · have ho : ¬(ownerId = owner ∧ activityId = act ∧ (none : Option Nat) = none ∧
          artId = artifact ∧ LinkRole.supporting = .supporting) := by
        rintro ⟨hown, hact, -, hart, -⟩
        exact hsame ⟨hown, hact, hart⟩
      have hdrop : ∀ link ∈ [(⟨db.links.next, ownerId, activityId, none, artId,
          .supporting⟩ : ActivityArtifactLink)], ¬(decide (link.ownerId = owner ∧
            link.activityInstanceId = act ∧ link.attemptId = none ∧
              link.artifactId = artifact ∧ link.linkRole = .supporting) = true) := by
        intro link hlink hpend
        obtain rfl := List.mem_singleton.mp hlink
        exact ho (of_decide_eq_true hpend)
      rw [List.filter_eq_nil_iff.mpr hdrop, List.length_nil, Nat.add_zero]
      exact h.link owner act artifact

theorem OneEach.artifactOfUpload {intent : ArtifactUploadIntent} {artifact : Artifact}
    (h : OneEach db)
    (hupload : ActivityService.artifactOfUpload db ownerId intent = .ok (artifact, after)) :
    OneEach after := by
  rcases artifactOfUpload_cases hupload with rfl | ⟨hnone, rfl⟩
  · exact h
  · refine ⟨?_, h.link⟩
    intro owner sha256
    unfold artifactsOf Serial.insert
    rw [List.filter_append, List.length_append]
    by_cases hsame : ownerId = owner ∧ intent.sha256 = sha256
    · obtain ⟨rfl, rfl⟩ := hsame
      have hnil : (db.artifacts.rows.filter fun artifact => decide
          (artifact.ownerId = ownerId ∧ artifact.contentHash = intent.sha256)) = [] := by
        rw [List.filter_eq_nil_iff]
        intro artifact hmem
        exact List.find?_eq_none.mp hnone artifact hmem
      rw [hnil]
      simp
    · have hdrop : ∀ artifact ∈ [(⟨db.artifacts.next, ownerId, intent.objectKey, intent.sha256,
          intent.contentType, intent.originalFilename, intent.byteLength,
          intent.artifactClass⟩ : Artifact)],
          ¬(decide (artifact.ownerId = owner ∧ artifact.contentHash = sha256) = true) := by
        intro artifact hart hf
        obtain rfl := List.mem_singleton.mp hart
        exact hsame (of_decide_eq_true hf)
      rw [List.filter_eq_nil_iff.mpr hdrop, List.length_nil, Nat.add_zero]
      exact h.artifact owner sha256

theorem OneEach.confirmArtifact {uploadKey objectKey : String} (h : OneEach db)
    (hconfirm : ActivityService.confirmArtifact env store db ownerId
      expectedVersion uploadKey objectKey row = .ok (response, after))
    : OneEach after := by
  simp only [ActivityService.confirmArtifact, bind_ok_iff] at hconfirm
  obtain ⟨_, -, receipt, -, _, -, ⟨artifact, mid⟩, hart, hres⟩ := hconfirm
  cases hres
  refine OneEach.ensurePendingArtifactLink ?_ _ _ _
  rcases confirmedArtifact_cases hart with rfl | ⟨intent, hupload⟩
  · exact h
  · exact h.artifactOfUpload hupload

theorem OneEach.refreshUpload {rcpt : ArtifactIntentReceipt} (h : OneEach db)
    (hrefr : ActivityService.refreshUpload store db ownerId row rcpt = .ok (response, after))
    : OneEach after := by
  simp only [ActivityService.refreshUpload, bind_ok_iff] at hrefr
  obtain ⟨_, -, _, -, hres⟩ := hrefr
  cases hres
  split
  · exact h.ensurePendingArtifactLink _ _ _
  · exact h

end Handlers

/-! ## Any calls -/

section Calls

variable {env : Env} {db after : Db} {ownerId : Nat} {key : String} {command : Command}
  {response : Response} {event : Event}
  {work : LockedActivity → Except ActivityError (Response × Db)}

theorem OneEach.idempotent (h : OneEach db)
    (hwork : ∀ row response mid, work row = .ok (response, mid) → OneEach mid)
    (hrun : ActivityService.idempotent env db ownerId command key work = .ok (response, after)) :
    OneEach after := by
  simp only [ActivityService.idempotent, bind_ok_iff] at hrun
  obtain ⟨row, -, duplicate?, -, hrun⟩ := hrun
  cases duplicate? with
  | some payload =>
    dsimp only at hrun
    split at hrun
    · cases hrun
    · cases hrun
      exact h
  | none =>
    simp only [bind_ok_iff] at hrun
    obtain ⟨⟨res, mid⟩, hres, ha⟩ := hrun
    cases ha
    exact (hwork row _ mid hres).untouched (Untouched.of_eq rfl rfl)

theorem OneEach.run (h : OneEach db)
    (hrun : ActivityService.run env db ownerId command key = .ok (response, after)) :
    OneEach after := by
  have hone : ∀ {mid : Db} {scope : Scope} {response : Response},
      Untouched db mid ∧ Answers scope response → OneEach mid := fun hwork => h.untouched hwork.1
  cases command with
  | start => exact h.idempotent (fun _ _ _ hwork => hone (Untouched.writes.start hwork)) hrun
  | heartbeat =>
    exact h.idempotent (fun _ _ _ hwork => hone (Untouched.writes.heartbeat hwork)) hrun
  | pause => exact h.idempotent (fun _ _ _ hwork => hone (Untouched.writes.pause hwork)) hrun
  | resume => exact h.idempotent (fun _ _ _ hwork => hone (Untouched.writes.resume hwork)) hrun
  | classifyIncomplete =>
    exact h.idempotent (fun _ _ _ hwork => hone (Untouched.writes.classifyIncomplete hwork)) hrun
  | presignArtifact =>
    simp only [ActivityService.run, presignArtifact, bind_ok_iff] at hrun
    obtain ⟨store, -, row, -, duplicate?, -, hrun⟩ := hrun
    split at hrun
    · exact h.refreshUpload hrun
    · cases hrun
    · simp only [bind_ok_iff] at hrun
      obtain ⟨rcpt, -, hrun⟩ := hrun
      refine OneEach.refreshUpload (h.untouched ?_) hrun
      exact Untouched.of_eq rfl rfl
  | confirmArtifact =>
    simp only [ActivityService.run, bind_ok_iff] at hrun
    obtain ⟨store, -, hrun⟩ := hrun
    exact h.idempotent (fun _ _ _ hwork => h.confirmArtifact hwork) hrun
  | setSourceVisibility =>
    exact h.idempotent (fun _ _ _ hwork => hone (Untouched.writes.setSourceVisibility hwork)) hrun
  | commitOutput =>
    exact h.idempotent (fun _ _ _ hwork => hone (Untouched.writes.commitOutput hwork)) hrun
  | submitSelfReview =>
    simp only [ActivityService.run, bind_ok_iff] at hrun
    obtain ⟨_, -, hrun⟩ := hrun
    exact h.idempotent (fun _ _ _ hwork => hone (Untouched.writes.submitSelfReview hwork)) hrun

theorem OneEach.execute (h : OneEach db) (env : Env) (ownerId : Nat) (command : Command)
    (key : String) : OneEach (ActivityService.execute env db ownerId command key).2 := by
  unfold ActivityService.execute
  split
  · rename_i hrun
    exact h.run hrun
  · exact h

theorem OneEach.step (h : OneEach db) (hstep : Step db event after) : OneEach after := by
  cases hstep with
  | executed call => exact h.execute _ _ _ _
  | unavailable call => exact h
  | planned hplan => exact h.untouched (Untouched.of_eq rfl rfl)
  | elsewhere => exact h.untouched (Untouched.of_eq rfl rfl)

/-! ## Kept intents -/

def Appends (db after : Db) : Prop := ∃ extra, after.receipts = db.receipts ++ extra

theorem Step.appends (h : Step db event after) : Appends db after := by
  cases h with
  | executed call => exact (execute_grows _ _ _ _ _).receipts
  | unavailable call => exact ⟨[], (List.append_nil _).symm⟩
  | planned hplan => exact ⟨[], (List.append_nil _).symm⟩
  | elsewhere => exact ⟨[], (List.append_nil _).symm⟩

theorem Appends.receipt? {scope : Scope} {receipt : CommandReceipt} (h : Appends db after)
    (hf : db.receipt? ownerId scope key = some receipt) :
    after.receipt? ownerId scope key = some receipt := by
  obtain ⟨extra, hextra⟩ := h
  unfold Db.receipt? at hf ⊢
  rw [hextra, List.find?_append, hf]
  rfl

theorem Kept.appends (h : Kept db ownerId command key response) (happs : Appends db after) :
    Kept after ownerId command key response := by
  obtain ⟨rcpt, hf, hhash, hpay⟩ := h.receipt
  exact ⟨h.safe, rcpt, happs.receipt? hf, hhash, hpay⟩

theorem Kept.unique {other : Response} (h : Kept db ownerId command key response)
    (ho : Kept db ownerId command key other) : other = response := by
  obtain ⟨rcpt, hf, -, hpay⟩ := h.receipt
  obtain ⟨rcpt', hf', -, hpay'⟩ := ho.receipt
  rw [hf] at hf'
  cases hf'
  rw [hpay] at hpay'
  exact (Option.some.inj hpay').symm

structure IntentKept (db : Db) (ownerId : Nat) (command : Command) (key : String)
    (intent : ArtifactIntentReceipt) : Prop where
  safe : safeKey key = true
  receipt : ∃ receipt, db.receipt? ownerId command.scope key = some receipt ∧
    receipt.requestHash = command.requestHash ∧ receipt.resultPayload = .intent intent

theorem IntentKept.appends {intent : ArtifactIntentReceipt}
    (h : IntentKept db ownerId command key intent) (happs : Appends db after) :
    IntentKept after ownerId command key intent := by
  obtain ⟨rcpt, hf, hhash, hpay⟩ := h.receipt
  exact ⟨h.safe, rcpt, happs.receipt? hf, hhash, hpay⟩

theorem IntentKept.unique {intent other : ArtifactIntentReceipt}
    (h : IntentKept db ownerId command key intent)
    (ho : IntentKept db ownerId command key other) : other = intent := by
  obtain ⟨rcpt, hf, -, hpay⟩ := h.receipt
  obtain ⟨rcpt', hf', -, hpay'⟩ := ho.receipt
  rw [hf] at hf'
  cases hf'
  rw [hpay] at hpay'
  cases hpay'
  rfl

theorem refreshUpload_response {row : LockedActivity} {rcpt : ArtifactIntentReceipt}
    (h : refreshUpload store db ownerId row rcpt = .ok (response, after)) :
    after.receipts = db.receipts ∧
      ∃ result, response = .presign result ∧ presignResponse store rcpt = .ok result := by
  have hframe := refreshUpload_frame h
  simp only [refreshUpload, bind_ok_iff] at h
  obtain ⟨_, -, result, hres, h⟩ := h
  cases h
  exact ⟨hframe.receipts, result, rfl, hres⟩

theorem run_presign (hscope : command.scope = .artifactPresign)
    (h : run env db ownerId command key = .ok (response, after)) :
    ∃ intent store result, IntentKept after ownerId command key intent ∧
      response = .presign result ∧ presignResponse store intent = .ok result := by
  cases command <;> simp only [Command.scope, reduceCtorEq] at hscope
  simp only [run, presignArtifact, bind_ok_iff] at h
  obtain ⟨store, -, row, -, duplicate?, hdup, h⟩ := h
  split at h
  · rename_i rcpt
    obtain ⟨hreceipts, result, hresp, hres⟩ := refreshUpload_response h
    obtain ⟨hsafe, stored, hf, hhash, hpay⟩ := duplicate_some hdup
    refine ⟨rcpt, store, result, ⟨hsafe, stored, ?_, hhash, hpay⟩, hresp, hres⟩
    rw [Db.receipt?, hreceipts]
    exact hf
  · cases h
  · simp only [bind_ok_iff] at h
    obtain ⟨rcpt, -, h⟩ := h
    obtain ⟨hreceipts, result, hresp, hres⟩ := refreshUpload_response h
    obtain ⟨hsafe, hnone⟩ := duplicate_none hdup
    refine ⟨rcpt, store, result, ⟨hsafe, ⟨ownerId, .artifactPresign, key, _,
      .intent rcpt, env.savedAt, env.savedAt + receiptLifetime⟩, ?_, rfl, rfl⟩, hresp,
      hres⟩
    unfold Db.receipt? at hnone ⊢
    rw [hreceipts]
    simp only [saveReceipt, List.find?_append, hnone]
    simp [Command.scope, Command.requestHash]

/-- An intent that is no reuse is answered with a new URL, while the activity is
active or paused, and nothing changes. -/
theorem execute_presign_replay {row : LockedActivity} {intent : ArtifactIntentReceipt}
    {res : ArtifactPresignResponse} (hscope : command.scope = .artifactPresign)
    (hstore : env.store = some store) (hload : db.load ownerId command.activityId = .ok row)
    (hst : row.activity.state = .active ∨ row.activity.state = .paused)
    (hkept : IntentKept db ownerId command key intent) (hreused : intent.reused = false)
    (hres : presignResponse store intent = .ok res) :
    execute env db ownerId command key = (.ok (.presign res), db) := by
  obtain ⟨rcpt, hf, hhash, hpay⟩ := hkept.receipt
  have hdup : duplicate db ownerId command key = .ok (some (.intent intent)) := by
    simp [duplicate, hkept.safe, hf, hhash, hpay, raiseFirst, bind, Except.bind, pure,
      Except.pure]
  have hrefr : refreshUpload store db ownerId row intent = .ok (.presign res, db) := by
    rcases hst with hst | hst
    all_goals
      simp [refreshUpload, hreused, hst, hres, raiseFirst, bind, Except.bind, pure,
        Except.pure]
  have hrun : run env db ownerId command key = .ok (.presign res, db) := by
    cases command <;> simp only [Command.scope, reduceCtorEq] at hscope
    simp only [run, requireObjectStore, hstore, presignArtifact, bind, Except.bind]
    rw [hload]
    dsimp only
    rw [hdup]
    exact hrefr
  unfold execute
  rw [hrun]

end Calls

end TamForge.Learning.ActivityService
