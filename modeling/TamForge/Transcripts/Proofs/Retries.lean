import TamForge.Transcripts.Proofs.Resubmission

/-!
# Retrying a submission

What every run of submissions keeps to, at every point where a call may have
stopped and in every state of the analysis job: rows stay, another content is
refused, and the same content replays up to the enqueue, which goes through as
long as no worker has sent the job back to the queue.
-/

namespace TamForge.Transcripts

open Jobs Models Notifications ProofSupport

variable {recording : Recording} {w w' : World} {now : Instant} {row : SpeechTranscript}
  {command : TranscriptSubmitCommand} {call : SubmitCall} {i : Nat} {e : Transition World Event}
  {trace before later : List (Transition World Event)} {owners : List Nat} {start : Instant}

structure SubmissionsRetry (recording : Recording) (trace : List (Transition World Event))
    (w : World) : Prop where
  /-- A stored row never changes. -/
  kept : ∀ e ∈ trace, ∀ row ∈ e.before.db.transcripts, row ∈ w.db.transcripts
  /-- A call with another content for the track changes nothing, and raises. -/
  rejected : ∀ i call row, w.calls i = some call → row ∈ w.db.transcripts →
    row.track = call.command.track → ¬SameContent recording call.command row →
    (∀ e ∈ trace, Answers i e) →
    Untouched i trace ∧ Rejecting recording call.command call.phase
  /-- A call that begins when its content is stored replays it, exactly when its
  enqueue does not find the job at another instant. -/
  retried : ∀ i command row before e later, trace = before ++ e :: later →
    e.label.action = .begins i command → row ∈ e.before.db.transcripts →
    SameContent recording command row → (∀ e ∈ later, Answers i e) →
    (Retried recording w i row ↔ ∀ e ∈ later, ¬MovedAt recording i row e)
  /-- A job is found at another instant only after it went back to the queue. -/
  moved : ∀ i row, ∀ e ∈ trace, MovedAt recording i row e →
    ∃ e ∈ trace, Requeues recording row e
  /-- A call in progress can always make its next statement, and has at most
  seven to make. -/
  ends : ∀ i call now, w.calls i = some call → 0 < call.phase.remaining → w.clock ≤ now →
    ∃ w' next, Step recording w ⟨now, .advances i⟩ w' ∧
      w'.calls i = some ⟨call.command, next⟩ ∧ next.remaining < call.phase.remaining

theorem SubmitRun.kept (hrun : SubmitRun recording owners start trace w) (he : e ∈ trace)
    (hrow : row ∈ e.before.db.transcripts) : row ∈ w.db.transcripts := by
  obtain ⟨before, later, -, hb, hstep, hlat⟩ := hrun.2.split he
  have hinv : WorldInv recording e.before := SubmitRun.worldInv ⟨hrun.1, hb⟩
  have hfst : row ∈ e.after.db.transcripts := by
    obtain ⟨hclk, after, hacts, ha⟩ := hstep
    rw [ha]
    exact (hacts.extends hclk hinv).transcripts row hrow
  have key : WorldInv recording w ∧ row ∈ w.db.transcripts := by
    refine hlat.state_invariant
      (I := fun w => WorldInv recording w ∧ row ∈ w.db.transcripts)
      ⟨hstep.worldInv hinv, hfst⟩ ?_
    rintro s label t ⟨hs, hmem⟩ hnext
    refine ⟨hnext.worldInv hs, ?_⟩
    obtain ⟨hclk, after, hacts, rfl⟩ := hnext
    exact (hacts.extends hclk hs).transcripts row hmem
  exact key.2

theorem SubmitRun.rejected (hsto : recording.state.isStored = true)
    (hrun : SubmitRun recording owners start trace w) (hcall : w.calls i = some call)
    (hrow : row ∈ w.db.transcripts) (htrack : row.track = call.command.track)
    (ho : ¬SameContent recording call.command row) (hanss : ∀ e ∈ trace, Answers i e) :
    Untouched i trace ∧ Rejecting recording call.command call.phase := by
  rcases hrun.storedOrRejecting hsto i hanss with ⟨hnone, -⟩ | ⟨found, hf, hph⟩
  · rw [hcall] at hnone
    cases hnone
  · rw [hcall] at hf
    cases hf
    rcases hph with ⟨stored, hmem, hsame⟩ | ⟨hrej, huntouched⟩
    · -- a track has one row, so the stored content is not another one
      have huniq := hrun.worldInv.row_unique hrow hmem (hsame.1.trans htrack.symm)
      rw [huniq] at hsame
      exact absurd hsame ho
    · exact ⟨huntouched, hrej⟩

theorem SubmitRun.resubmitting (hsto : recording.state.isStored = true)
    (hrun : SubmitRun recording owners start trace w) (htr : trace = before ++ e :: later)
    (hbegin : e.label.action = .begins i command) (hrow : row ∈ e.before.db.transcripts)
    (hsame : SameContent recording command row) (hanss : ∀ e ∈ later, Answers i e) :
    Resubmitting recording i command row later w := by
  obtain ⟨mid, hb, hrest⟩ := hrun.2.of_append htr
  obtain ⟨rfl, hstep, hlat⟩ := hrest.of_cons
  have hinv : WorldInv recording e.before := SubmitRun.worldInv ⟨hrun.1, hb⟩
  have hfst : Resubmitting recording i command row [] e.after := by
    obtain ⟨-, after, hacts, ha⟩ := hstep
    rw [hbegin] at hacts
    cases hacts with
    | begins hfree =>
      rw [ha]
      refine ⟨hrow, .resolved, ?_, Or.inl ⟨trivial, by simp⟩⟩
      show (e.before.setCall i ⟨command, resolve recording⟩).calls i = _
      rw [setCall_calls_self, resolve, if_pos hsto]
  have key : WorldInv recording w ∧
      ((∀ e ∈ later, Answers i e) → Resubmitting recording i command row later w) := by
    refine hlat.invariant (I := fun later w => WorldInv recording w ∧
      ((∀ e ∈ later, Answers i e) → Resubmitting recording i command row later w))
      ⟨hstep.worldInv hinv, fun _ => hfst⟩ ?_
    rintro later s label t ⟨hs, hearl⟩ hnext
    refine ⟨hnext.worldInv hs, ?_⟩
    intro hall
    obtain ⟨hclk, after, hacts, rfl⟩ := hnext
    exact hacts.resubmitting hclk hs hsame (hall _ (by simp))
      (hearl fun e he => hall e (List.mem_append_left _ he))
  exact key.2 hanss

theorem SubmitRun.moved (hrun : SubmitRun recording owners start trace w) (he : e ∈ trace)
    (hmov : MovedAt recording i row e) : ∃ e ∈ trace, Requeues recording row e := by
  obtain ⟨before, later, htr, hb, -, -⟩ := hrun.2.split he
  have hearl : SubmitRun recording owners start before e.before := ⟨hrun.1, hb⟩
  obtain ⟨-, ⟨call, replayed, availableAt, hcall, hph⟩, job, hjob, hanl, hne⟩ := hmov
  have hheld := hearl.worldInv.calls i call hcall
  rw [hph] at hheld
  rcases hearl.jobsDated row hheld.1 job hjob hanl with hdated | ⟨f, hf, hrequeues⟩
  · exact absurd hdated hne
  · exact ⟨f, by simp [htr, hf], hrequeues⟩

theorem advances_step (hcall : w.calls i = some call) (hunfin : 0 < call.phase.remaining)
    (hclk : w.clock ≤ now) :
    Step recording w ⟨now, .advances i⟩
      { w.advanceCall recording now i call with clock := now } :=
  ⟨hclk, _, .advances hcall hunfin, rfl⟩

/-- The world in which the call `i` has made a statement. -/
def World.moved (w : World) (i : Nat) (command : TranscriptSubmitCommand) (next : Phase) (db : Db) :
    World :=
  { w with db := db }.setCall i ⟨command, next⟩

theorem moved_step (w : World) (command : TranscriptSubmitCommand) {phase next : Phase} {db : Db}
    (hcall : w.calls i = some ⟨command, phase⟩) (hunfin : 0 < phase.remaining)
    (hadvance : advance recording w.db w.clock command phase = (next, db)) :
    Step recording w ⟨w.clock, .advances i⟩ (w.moved i command next db) := by
  refine ⟨le_refl _, w.advanceCall recording w.clock i ⟨command, phase⟩,
    .advances hcall hunfin, ?_⟩
  simp only [World.advanceCall, hadvance]
  rfl

/-- Once its job has moved, a resubmission of the row that is left alone raises
the conflict of the queue. -/
theorem resubmission_conflicts (hsto : recording.state.isStored = true)
    (hinv : WorldInv recording w) (hfree : w.calls i = none) (hrow : row ∈ w.db.transcripts)
    (hsame : SameContent recording command row) (hjob : ∃ job ∈ w.db.queue.jobs,
      IsAnalysisOf recording row job ∧ row.createdAt ≠ job.availableAt)
    (htranscriptIds : w.db.nextTranscriptId ≤ bigintMax)
    (hjobIds : w.db.queue.nextJobId ≤ bigintMax) :
    ∃ e later w', Run (Step recording) w (e :: later) w' ∧ e.before = w ∧
      e.label.action = .begins i command ∧ (∀ e' ∈ later, Answers i e') ∧
      w'.calls i = some ⟨command,
        .raised (.job (.conflict "Idempotency-Key was reused for another job"))⟩ := by
  obtain ⟨htrack, found, hcon, hhash⟩ := hsame
  obtain ⟨job, hmem, hanl, hne⟩ := hjob
  let accepted := acceptLineage w.db
  let w1 := w.setCall i ⟨command, .resolved⟩
  let w2 := w1.moved i command (.stored row true) w.db
  let w3 := w2.moved i command (.accepted row true) accepted
  let w4 := w3.moved i command (.dated row true row.createdAt) accepted
  let w5 := w4.moved i command
    (.raised (.job (.conflict "Idempotency-Key was reused for another job"))) accepted
  have hselect : advance recording w.db w.clock command .resolved = (.stored row true, w.db) := by
    have hf : w.db.byRecordingTrack command.track = some row := by
      rw [← htrack]
      exact hinv.byRecordingTrack hrow
    simp only [advance, hcon, storeSelect, hf, hhash, ne_eq, not_true_eq_false, if_false]
  have hdate : advance recording accepted w.clock command (.accepted row true) =
      (.dated row true row.createdAt, accepted) := by
    have hcrt : accepted.createdAt? row.id = some row.createdAt := hinv.createdAt? hrow
    simp only [advance, hcrt, Option.getD_some]
  have henq : advance recording accepted w.clock command (.dated row true row.createdAt) =
      (.raised (.job (.conflict "Idempotency-Key was reused for another job")), accepted) := by
    have hold := enqueueSpeechAnalysis_existing hinv hmem hanl row.createdAt w.clock
    rw [if_neg hne] at hold
    have hqueue : enqueueSpeechAnalysis recording accepted.queue w.clock row row.createdAt = _ :=
      hold
    simp only [advance, hqueue, isSqlAlchemyError, Bool.false_eq_true, if_false]
  have h1 : Step recording w ⟨w.clock, .begins i command⟩ w1 := by
    refine ⟨le_refl _, w1, ?_, rfl⟩
    have hbegins : Acts recording w w.clock (.begins i command)
        (w.setCall i ⟨command, resolve recording⟩) := .begins hfree
    rw [resolve, if_pos hsto] at hbegins
    exact hbegins
  have h2 : Step recording w1 ⟨w.clock, .advances i⟩ w2 :=
    moved_step w1 command (setCall_calls_self _ _ _) (by decide) hselect
  have h3 : Step recording w2 ⟨w.clock, .advances i⟩ w3 :=
    moved_step w2 command (setCall_calls_self _ _ _) (by simp [Phase.remaining]) rfl
  have h4 : Step recording w3 ⟨w.clock, .advances i⟩ w4 :=
    moved_step w3 command (setCall_calls_self _ _ _) (by simp [Phase.remaining]) hdate
  have h5 : Step recording w4 ⟨w.clock, .advances i⟩ w5 :=
    moved_step w4 command (setCall_calls_self _ _ _) (by simp [Phase.remaining]) henq
  have hrun := ((((Run.single h1).snoc h2).snoc h3).snoc h4).snoc h5
  refine ⟨⟨w, ⟨w.clock, .begins i command⟩, w1⟩, [⟨w1, ⟨w.clock, .advances i⟩, w2⟩,
    ⟨w2, ⟨w.clock, .advances i⟩, w3⟩, ⟨w3, ⟨w.clock, .advances i⟩, w4⟩,
    ⟨w4, ⟨w.clock, .advances i⟩, w5⟩], w5, hrun, rfl, rfl, ?_, setCall_calls_self _ _ _⟩
  have hanss : ∀ v v' : World, v.db.nextTranscriptId = w.db.nextTranscriptId →
      v.db.queue = w.db.queue → Answers i ⟨v, ⟨w.clock, .advances i⟩, v'⟩ := by
    intro v v' hnext hqueue
    refine ⟨by simp, by simp, hnext.trans_le htranscriptIds, ?_⟩
    show v.db.queue.nextJobId ≤ bigintMax
    rw [hqueue]
    exact hjobIds
  simp only [List.mem_cons, List.not_mem_nil, or_false, forall_eq_or_imp, forall_eq]
  exact ⟨hanss w1 w2 rfl rfl, hanss w2 w3 rfl rfl, hanss w3 w4 rfl rfl,
    hanss w4 w5 rfl rfl⟩

/-! ## A sample run -/

def sampleRecording : Recording where
  id := 1
  ownerId := 1
  clientRecordingId := 7
  state := .stored
  id_pos := Nat.one_pos
  id_le := one_le_bigintMax
  owner_pos := Nat.one_pos

def sampleCommand : TranscriptSubmitCommand where
  track := .microphone
  body := [("schema_version", .number "1"), ("track", .string "microphone"),
    ("segments", .array [])]

def sampleBytes : Option Bytes :=
  Agents.canonicalBytes (.object (sampleCommand.body ++
    [("recording_id", .number (toString sampleRecording.id)),
      ("track", .string (trackText sampleCommand.track))])) transcriptBodyLimit

def sampleContent : Content where
  canonicalJson := sampleBytes.getD []
  contentHash := sha256 (sampleBytes.getD [])

theorem content_sample : content sampleRecording sampleCommand = .ok sampleContent := by
  have hsome : sampleBytes.isSome = true := by decide +kernel
  obtain ⟨bytes, hbytes⟩ := Option.isSome_iff_exists.mp hsome
  have hcanonical : Agents.canonicalBytes (.object (sampleCommand.body ++
      [("recording_id", .number (toString sampleRecording.id)),
        ("track", .string (trackText sampleCommand.track))])) transcriptBodyLimit = some bytes :=
    hbytes
  simp only [content, canonicalize, hcanonical, sampleContent, hbytes, Option.getD_some]

def sampleRow : SpeechTranscript where
  id := 1
  track := .microphone
  canonicalJson := sampleContent.canonicalJson
  contentHash := sampleContent.contentHash
  createdAt := 0
  id_pos := Nat.one_pos
  id_le := one_le_bigintMax

def sampleAnalysis : EnqueueJobCommand :=
  speechAnalysisCommand sampleRecording sampleRow 0

def sampleQueue : Jobs.Store :=
  (exec (Jobs.Store.empty [1]) 0 (.enqueue 1 sampleAnalysis "speech-analysis-r1-t1")).2

/-- The database once the first submission has returned. -/
def sampleDb (queue : Jobs.Store) : Db where
  transcriptLineageAccepted := true
  transcripts := [sampleRow]
  nextTranscriptId := 2
  corrections := []
  queue := queue

theorem sample_enqueue : ∃ res,
    enqueueSpeechAnalysis sampleRecording (Jobs.Store.empty [1]) 0 sampleRow 0 =
      .ok (res, sampleQueue) := by
  have hkey : speechIdempotencyKey sampleRecording.id sampleRow.id = "speech-analysis-r1-t1" := by
    decide
  have hsafe : safeKey "speech-analysis-r1-t1" = true := by decide
  have hout : (exec (Jobs.Store.empty [1]) 0
      (.enqueue 1 sampleAnalysis "speech-analysis-r1-t1")).1 = .enqueued
        ⟨response (newJob 1 1 sampleAnalysis "speech-analysis-r1-t1" 0), false⟩ := by
    decide
  have hservice : enqueueSpeechAnalysis sampleRecording (Jobs.Store.empty [1]) 0 sampleRow 0 =
      enqueue (Jobs.Store.empty [1]) 0 1 sampleAnalysis "speech-analysis-r1-t1" := by
    simp only [enqueueSpeechAnalysis, JobService.enqueue, hkey, hsafe]
    rfl
  rw [hservice]
  cases henq : enqueue (Jobs.Store.empty [1]) 0 1 sampleAnalysis "speech-analysis-r1-t1" with
  | error error =>
    simp only [exec, henq, transact] at hout
    cases hout
  | ok stored =>
    refine ⟨stored.1, ?_⟩
    simp only [sampleQueue, exec, henq, transact]

theorem sample_submission :
    ∃ trace w, SubmitRun sampleRecording [1] 0 trace w ∧ w.db = sampleDb sampleQueue ∧
      w.clock = 0 ∧ (∀ i ≠ 0, w.calls i = none) := by
  let w0 := World.empty [1] 0
  let w1 := w0.setCall 0 ⟨sampleCommand, .resolved⟩
  let w2 := w1.moved 0 sampleCommand (.selected 0 sampleContent) w0.db
  let w3 := w2.moved 0 sampleCommand (.stored sampleRow false)
    { sampleDb (Jobs.Store.empty [1]) with transcriptLineageAccepted := false }
  let w4 := w3.moved 0 sampleCommand (.accepted sampleRow false) (sampleDb (Jobs.Store.empty [1]))
  let w5 := w4.moved 0 sampleCommand (.dated sampleRow false 0) (sampleDb (Jobs.Store.empty [1]))
  let w6 := w5.moved 0 sampleCommand (.enqueued sampleRow false) (sampleDb sampleQueue)
  have hselect : advance sampleRecording w1.db w1.clock sampleCommand .resolved =
      (.selected 0 sampleContent, w0.db) := by
    simp only [advance, content_sample]
    rfl
  have h1 : Step sampleRecording w0 ⟨0, .begins 0 sampleCommand⟩ w1 :=
    ⟨le_refl _, w1, .begins rfl, rfl⟩
  have h2 : Step sampleRecording w1 ⟨0, .advances 0⟩ w2 :=
    moved_step w1 sampleCommand rfl (by decide) hselect
  have h3 : Step sampleRecording w2 ⟨0, .advances 0⟩ w3 :=
    moved_step w2 sampleCommand rfl (by decide) rfl
  have h4 : Step sampleRecording w3 ⟨0, .advances 0⟩ w4 :=
    moved_step w3 sampleCommand rfl (by decide) rfl
  have h5 : Step sampleRecording w4 ⟨0, .advances 0⟩ w5 :=
    moved_step w4 sampleCommand rfl (by decide) rfl
  have henq : advance sampleRecording w5.db w5.clock sampleCommand (.dated sampleRow false 0) =
      (.enqueued sampleRow false, sampleDb sampleQueue) := by
    obtain ⟨res, hok⟩ := sample_enqueue
    have hqueue : enqueueSpeechAnalysis sampleRecording w5.db.queue w5.clock sampleRow 0 =
        .ok (res, sampleQueue) := hok
    simp only [advance, hqueue]
    rfl
  have h6 : Step sampleRecording w5 ⟨0, .advances 0⟩ w6 :=
    moved_step w5 sampleCommand rfl (by decide) henq
  have hrun := (((((Run.single h1).snoc h2).snoc h3).snoc h4).snoc h5).snoc h6
  refine ⟨_, w6, ⟨by decide, hrun⟩, rfl, rfl, ?_⟩
  intro i hi
  have hnone : w0.calls i = none := rfl
  simp only [w6, w5, w4, w3, w2, w1, World.moved]
  repeat rw [setCall_calls_ne _ _ hi]
  exact hnone

theorem speechWorker_safe : safeKey "worker-a" = true := by decide

def speechClaim : ClaimJobCommand where
  workerId := "worker-a"
  kinds := ["speech_analysis"]
  leaseSeconds := 600
  workerId_safe := speechWorker_safe
  kinds_slug := by decide
  kinds_ne_nil := by decide
  kinds_length := by decide
  kinds_nodup := by decide
  leaseSeconds_ge := by decide
  leaseSeconds_le := by decide

def claimedQueue : Jobs.Store := (exec sampleQueue 5 (.claim speechClaim [])).2

def retriedQueue : Jobs.Store := (exec claimedQueue 9 (.retry 1 sampleRetry)).2

theorem queue_step (w : World) (now : Instant) (command : Jobs.Command)
    (hfar : Foreign recording command)
    (hclk : w.clock ≤ now) :
    Step recording w ⟨now, .queue command (exec w.db.queue now command).1⟩
      { w with
        db := { w.db with queue := (exec w.db.queue now command).2 }
        clock := now } :=
  ⟨hclk, _, .queue hfar ⟨hclk, rfl, Or.inl rfl⟩, rfl⟩

theorem sample_retry :
    ∃ trace w, SubmitRun sampleRecording [1] 0 trace w ∧ w.db = sampleDb retriedQueue ∧
      w.calls 1 = none := by
  obtain ⟨trace, w, ⟨hown, hrun⟩, hdb, hclk, hcalls⟩ := sample_submission
  have hfar : Foreign sampleRecording (.claim speechClaim []) ∧
      Foreign sampleRecording (.retry 1 sampleRetry) := by
    constructor <;> simp [Foreign]
  have hclaim := queue_step w 5 (.claim speechClaim []) hfar.1 (by rw [hclk]; decide)
  have hretry := queue_step { w with
    db := { w.db with queue := (exec w.db.queue 5 (.claim speechClaim [])).2 }
    clock := 5 } 9 (.retry 1 sampleRetry) hfar.2 (show (5 : Instant) ≤ 9 by decide)
  refine ⟨_, _, ⟨hown, (hrun.snoc hclaim).snoc hretry⟩, ?_, hcalls 1 (by decide)⟩
  rw [hdb]
  rfl

end TamForge.Transcripts
