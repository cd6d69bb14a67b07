import TamForge.Transcripts.Repository

/-!
# Submitting a transcript

`TranscriptService.submit` with `SpeechAnalysisService.enqueue` as its hook, one
statement of the database at a time: the transactions of `store`, the one that
accepts the lineage, the read of the transcript's creation time, the enqueue of
the analysis and the read of the corrections.
-/

namespace TamForge.Transcripts

open Jobs Models ProofSupport Recordings
open Speech (Track)

/-! ## The analysis job -/

def speechAnalysisKind : String := "speech_analysis"

def speechPriority : Nat := 60

def speechMaxAttempts : Nat := 3

/-- `speech_idempotency_key`; both identities are positive. -/
def speechIdempotencyKey (recordingId transcriptId : Nat) : String :=
  "speech-analysis-r" ++ toString recordingId ++ "-t" ++ toString transcriptId

def speechAnalysisCommand (recording : Recording) (row : SpeechTranscript)
    (availableAt : Instant) : EnqueueJobCommand where
  kind := speechAnalysisKind
  payload := {
    subjectId := recording.id
    relatedId := some row.id
    subjectId_pos := recording.id_pos
    relatedId_pos := by rintro id ⟨⟩; exact row.id_pos }
  priority := speechPriority
  availableAt := availableAt
  maxAttempts := speechMaxAttempts
  kind_slug := by decide
  priority_le := by decide
  maxAttempts_pos := by decide
  maxAttempts_le := by decide

def enqueueSpeechAnalysis (recording : Recording) (queue : Jobs.Store) (now : Instant)
    (row : SpeechTranscript) (availableAt : Instant) :
    Except JobError (EnqueueResult × Jobs.Store) :=
  JobService.enqueue queue now recording.ownerId (speechAnalysisCommand recording row availableAt)
    (speechIdempotencyKey recording.id row.id)

/-- `isinstance(error, SQLAlchemyError)` -/
def isSqlAlchemyError : JobError → Bool
  | .uniqueViolation _ | .checkViolation _ | .storageUnavailable => true
  | .notFound _ | .conflict _ | .invalidRequest _ | .policy _ | .model _ | .overflow => false

/-! ## Responses -/

structure TranscriptCorrectionResponse where
  schemaVersion : Nat := 1
  correctionId : Nat
  transcriptId : Nat
  segmentIndex : Nat
  wordStartIndex : Nat
  wordEndIndex : Nat
  originalText : String
  correctedText : String
  reason : String
  createdAt : Instant
  replayed : Bool

structure TranscriptResponse where
  schemaVersion : Nat := 1
  transcriptId : Nat
  recordingId : Uuid
  track : Track
  contentHash : String
  createdAt : Instant
  replayed : Bool
  corrections : List TranscriptCorrectionResponse

def maxCorrectionsPerTranscript : Nat := 1000

def correctionResponse (row : SpeechTranscriptCorrection) (replayed : Bool) :
    TranscriptCorrectionResponse where
  correctionId := row.id
  transcriptId := row.transcriptId
  segmentIndex := row.body.segmentIndex
  wordStartIndex := row.body.wordStartIndex
  wordEndIndex := row.body.wordEndIndex
  originalText := row.body.originalText
  correctedText := row.body.correctedText
  reason := row.body.reason
  createdAt := row.createdAt
  replayed := replayed

def toResponse (recording : Recording) (db : Db) (row : SpeechTranscript) (replayed : Bool) :
    TranscriptResponse where
  transcriptId := row.id
  recordingId := recording.clientRecordingId
  track := row.track
  contentHash := hexdigest row.contentHash
  createdAt := row.createdAt
  replayed := replayed
  corrections := ((db.correctionsOf row.id).take maxCorrectionsPerTranscript).map
    fun correction => correctionResponse correction false

/-! ## A call of `submit` -/

/-- How far a call has come. -/
inductive Phase
  /-- It has resolved the recording. -/
  | resolved
  /-- Its transaction began at `began` and has found no row of the track. -/
  | selected (began : Instant) (content : Content)
  /-- Its insert met the row of another call. -/
  | collided (content : Content)
  | stored (row : SpeechTranscript) (replayed : Bool)
  /-- It has set the lineage flag. -/
  | accepted (row : SpeechTranscript) (replayed : Bool)
  /-- It has read when the analysis is to be available. -/
  | dated (row : SpeechTranscript) (replayed : Bool) (availableAt : Instant)
  | enqueued (row : SpeechTranscript) (replayed : Bool)
  | returned (response : TranscriptResponse)
  | raised (error : SubmitError)
  | crashed

/-- The statements that a call has yet to make, at most. -/
def Phase.remaining : Phase → Nat
  | resolved => 7
  | selected _ _ => 6
  | collided _ => 5
  | stored _ _ => 4
  | accepted _ _ => 3
  | dated _ _ _ => 2
  | enqueued _ _ => 1
  | returned _ | raised _ | crashed => 0

/-- `_resolve_recording` has found the recording; the check of its state. -/
def resolve (recording : Recording) : Phase :=
  if recording.state.isStored then .resolved else .raised (.transcript .conflict)

def acceptLineage (db : Db) : Db := { db with transcriptLineageAccepted := true }

/-- `select(SpeechTranscript.created_at).where(SpeechTranscript.id == transcript_id)` -/
def Db.createdAt? (db : Db) (transcriptId : Nat) : Option Instant :=
  (Table.lookup SpeechTranscript.id db.transcripts transcriptId).map SpeechTranscript.createdAt

/-- The next statement of a call on a database that answers. -/
def advance (recording : Recording) (db : Db) (now : Instant)
    (command : TranscriptSubmitCommand) : Phase → Phase × Db
  | .resolved =>
    match content recording command with
    | .error error => (.raised (.transcript error), db)
    | .ok content =>
      match storeSelect db command.track content with
      | .error error => (.raised (.transcript error), db)
      | .ok (some written) => (.stored written.row written.replayed, db)
      | .ok none => (.selected now content, db)
  | .selected began content =>
    match storeInsert db began command.track content with
    | .written row db => (.stored row false, db)
    | .collided => (.collided content, db)
    | .refused => (.raised (.transcript .unavailable), db)
  | .collided content =>
    match reconcileLostRace db command.track content with
    | .error error => (.raised (.transcript error), db)
    | .ok row => (.stored row true, db)
  | .stored row replayed => (.accepted row replayed, acceptLineage db)
  | .accepted row replayed => (.dated row replayed ((db.createdAt? row.id).getD now), db)
  | .dated row replayed availableAt =>
    match enqueueSpeechAnalysis recording db.queue now row availableAt with
    | .ok (_, queue) => (.enqueued row replayed, { db with queue := queue })
    | .error error =>
      if isSqlAlchemyError error then (.raised (.transcript .unavailable), db)
      else (.raised (.job error), db)
  | .enqueued row replayed => (.returned (toResponse recording db row replayed), db)
  | .returned response => (.returned response, db)
  | .raised error => (.raised error, db)
  | .crashed => (.crashed, db)

/-- What a call raises when the database fails its next statement.  The read of
the corrections is in no `try` block. -/
def failure : Phase → SubmitError
  | .enqueued _ _ => .database
  | _ => .transcript .unavailable

end TamForge.Transcripts

/-!
## Runs of submissions

Any number of calls of `submit` for one recording, interleaved statement by
statement with each other and with everything the workers do to the queue.  A
call may stop for good between two statements, and a statement may fail.
-/

namespace TamForge.Transcripts

open Jobs Models Notifications ProofSupport

structure SubmitCall where
  command : TranscriptSubmitCommand
  phase : Phase

structure World where
  db : Db
  clock : Instant
  calls : Nat → Option SubmitCall

def World.setCall (w : World) (i : Nat) (call : SubmitCall) : World :=
  { w with calls := fun j => if j = i then some call else w.calls j }

/-- The next statement of the call `i`. -/
def World.advanceCall (recording : Recording) (w : World) (now : Instant) (i : Nat)
    (call : SubmitCall) : World :=
  let next := advance recording w.db now call.command call.phase
  { w with db := next.2 }.setCall i { call with phase := next.1 }

inductive Action
  | begins (i : Nat) (command : TranscriptSubmitCommand)
  | advances (i : Nat)
  | fails (i : Nat)
  | crashes (i : Nat)
  | queue (command : Jobs.Command) (outcome : Jobs.Outcome)
  | corrects (row : SpeechTranscriptCorrection)
  | skips

structure Event where
  now : Instant
  action : Action

/-- Nobody but `SpeechAnalysisService.enqueue` asks for a speech analysis of the
recording, or uses one of its keys. -/
def Foreign (recording : Recording) (command : Jobs.Command) : Prop :=
  ∀ enqueued key, command = .enqueue recording.ownerId enqueued key →
    (enqueued.kind = speechAnalysisKind → enqueued.payload.subjectId ≠ recording.id) ∧
      ∀ transcriptId, key ≠ speechIdempotencyKey recording.id transcriptId

inductive Acts (recording : Recording) (w : World) (now : Instant) : Action → World → Prop
  | begins {i : Nat} {command : TranscriptSubmitCommand} :
      w.calls i = none →
      Acts recording w now (.begins i command) (w.setCall i ⟨command, resolve recording⟩)
  | advances {i : Nat} {call : SubmitCall} :
      w.calls i = some call → 0 < call.phase.remaining →
      Acts recording w now (.advances i) (w.advanceCall recording now i call)
  | fails {i : Nat} {call : SubmitCall} :
      w.calls i = some call → 0 < call.phase.remaining →
      Acts recording w now (.fails i)
        (w.setCall i { call with phase := .raised (failure call.phase) })
  | crashes {i : Nat} {call : SubmitCall} :
      w.calls i = some call → 0 < call.phase.remaining →
      Acts recording w now (.crashes i) (w.setCall i { call with phase := .crashed })
  /-- Workers claim, retry, reclaim, complete, fail and cancel jobs, and other
  parts of the program enqueue theirs. -/
  | queue {command : Jobs.Command} {outcome : Jobs.Outcome} {queue : Jobs.Store} :
      Foreign recording command →
      Jobs.Step ⟨w.db.queue, w.clock⟩ ⟨now, command, outcome⟩ ⟨queue, now⟩ →
      Acts recording w now (.queue command outcome) { w with db := { w.db with queue := queue } }
  | corrects {row : SpeechTranscriptCorrection} :
      Acts recording w now (.corrects row)
        { w with db := { w.db with corrections := w.db.corrections ++ [row] } }
  /-- The identity column serves the rows of other recordings too. -/
  | skips :
      Acts recording w now .skips
        { w with db := { w.db with nextTranscriptId := w.db.nextTranscriptId + 1 } }

/-- One action at a clock that does not go back. -/
def Step (recording : Recording) (w : World) (e : Event) (w' : World) : Prop :=
  w.clock ≤ e.now ∧ ∃ after, Acts recording w e.now e.action after ∧
    w' = { after with clock := e.now }

/-- No transcript, no job and no call yet. -/
def World.empty (owners : List Nat) (start : Instant) : World where
  db := {
    transcriptLineageAccepted := false
    transcripts := []
    nextTranscriptId := 1
    corrections := []
    queue := Jobs.Store.empty owners }
  clock := start
  calls := fun _ => none

def SubmitRun (recording : Recording) (owners : List Nat) (start : Instant)
    (trace : List (Transition World Event)) (w : World) : Prop :=
  recording.ownerId ∈ owners ∧ Run (Step recording) (World.empty owners start) trace w

end TamForge.Transcripts
