import TamForge.Agents.Hashing
import TamForge.Jobs.Service
import TamForge.Recordings.Schemas
import TamForge.Speech.Analysis

/-!
# Transcripts of a recording

The rows of `speech/models.py` for one recording and the statements that
`SqlAlchemyTranscriptRepository.store` makes on them.  A row is inserted once
for each track; a submission with the same content hash replays it.
-/

namespace TamForge.Transcripts

open Agents Jobs Models ProofSupport Recordings
open Speech (Track)

/-! ## Contracts -/

inductive TranscriptError
  | notFound
  | conflict
  | tooLarge
  | unavailable

def TranscriptError.message : TranscriptError → String
  | notFound => "transcript not found"
  | conflict => "transcript conflicts with an existing record"
  | tooLarge => "transcript body exceeds the size limit"
  | unavailable => "transcript storage is temporarily unavailable"

/-- What a submission raises: an error of this domain, an error of the job queue
that the hook let through, or a database error that no layer translates. -/
inductive SubmitError
  | transcript (error : TranscriptError)
  | job (error : JobError)
  | database

def trackText : Track → String
  | .microphone => "microphone"
  | .systemAudio => "system_audio"

/-- A validated command, as `model_dump(mode="json")` dumps it. -/
structure TranscriptSubmitCommand where
  track : Track
  body : List (String × Json)

/-! ## Rows -/

/-- The row of `recordings` that the submissions are for. -/
structure Recording where
  id : Nat
  ownerId : Nat
  clientRecordingId : Uuid
  state : RecordingState
  id_pos : 0 < id
  id_le : id ≤ bigintMax
  owner_pos : 0 < ownerId

/-- A row of `speech_transcripts`.  The columns computed from its text are the
recording, the same for every row here, and the track. -/
structure SpeechTranscript where
  id : Nat
  track : Track
  canonicalJson : Bytes
  contentHash : Digest
  createdAt : Instant
  id_pos : 0 < id
  id_le : id ≤ bigintMax

structure Correction where
  segmentIndex : Nat
  wordStartIndex : Nat
  wordEndIndex : Nat
  originalText : String
  correctedText : String
  reason : String

/-- A row of `speech_transcript_corrections`. -/
structure SpeechTranscriptCorrection where
  id : Nat
  transcriptId : Nat
  body : Correction
  createdAt : Instant

/-- What the submissions for one recording read and write: its lineage flag, its
rows, the next value of the identity column, and the job queue. -/
structure Db where
  transcriptLineageAccepted : Bool
  transcripts : List SpeechTranscript
  nextTranscriptId : Nat
  corrections : List SpeechTranscriptCorrection
  queue : Jobs.Store

/-! ## The repository -/

def transcriptBodyLimit : Nat := 4194304

/-- The canonical text of a body and its hash. -/
structure Content where
  canonicalJson : Bytes
  contentHash : Digest

def canonicalize (body : List (String × Json)) (limit : Nat) : Except TranscriptError Content :=
  match canonicalBytes (.object body) limit with
  | none => .error .tooLarge
  | some canonical => .ok ⟨canonical, sha256 canonical⟩

/-- The content that `store` hashes: the body with the recording and the track. -/
def content (recording : Recording) (command : TranscriptSubmitCommand) :
    Except TranscriptError Content :=
  canonicalize (command.body ++ [("recording_id", .number (toString recording.id)),
    ("track", .string (trackText command.track))]) transcriptBodyLimit

def Db.byRecordingTrack (db : Db) (track : Track) : Option SpeechTranscript :=
  Table.lookup SpeechTranscript.track db.transcripts track

structure Written where
  row : SpeechTranscript
  replayed : Bool

/-- The first statement of `store`: a row of the same content replays, nothing
is left to the insert. -/
def storeSelect (db : Db) (track : Track) (content : Content) :
    Except TranscriptError (Option Written) :=
  match db.byRecordingTrack track with
  | some existing =>
    if existing.contentHash ≠ content.contentHash then .error .conflict
    else .ok (some ⟨existing, true⟩)
  | none => .ok none

/-- How the insert of `store` ends. -/
inductive Inserted
  | written (row : SpeechTranscript) (db : Db)
  /-- `IntegrityError`: another row has the track. -/
  | collided
  /-- Any other `SQLAlchemyError`: the identity column has run out. -/
  | refused

/-- The insert of `store` in a transaction that began at `began`. -/
def storeInsert (db : Db) (began : Instant) (track : Track) (content : Content) : Inserted :=
  if h : 0 < db.nextTranscriptId ∧ db.nextTranscriptId ≤ bigintMax then
    match db.byRecordingTrack track with
    | some _ => .collided
    | none =>
      let row : SpeechTranscript :=
        { id := db.nextTranscriptId, track := track, canonicalJson := content.canonicalJson,
          contentHash := content.contentHash, createdAt := began, id_pos := h.1, id_le := h.2 }
      .written row { db with
        transcripts := db.transcripts ++ [row]
        nextTranscriptId := db.nextTranscriptId + 1 }
  else .refused

def reconcileLostRace (db : Db) (track : Track) (content : Content) :
    Except TranscriptError SpeechTranscript :=
  match db.byRecordingTrack track with
  | none => .error .conflict
  | some existing =>
    if existing.contentHash ≠ content.contentHash then .error .conflict else .ok existing

/-- `corrections` -/
def Db.correctionsOf (db : Db) (transcriptId : Nat) : List SpeechTranscriptCorrection :=
  (db.corrections.filter fun row => row.transcriptId == transcriptId).insertionSort
    fun first second => first.id ≤ second.id

end TamForge.Transcripts
