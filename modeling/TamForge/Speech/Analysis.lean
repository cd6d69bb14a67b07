import Mathlib.Data.List.Sort
import TamForge.Models.Base
import TamForge.ProofSupport.Run

/-!
# The speech analysis of one recording

`build_turns` and `SpeechAnalysisService.process` of `speech/analysis.py`, with
the calls of any number of workers interleaved statement by statement: a call
reads the transcripts first and takes the lock on the analysis row afterwards.
-/

namespace TamForge.Speech

open Models ProofSupport

inductive Track
  | microphone | systemAudio
deriving DecidableEq

inductive Speaker
  | learner | other
deriving DecidableEq

structure TranscriptSegment where
  startMs : Nat
  endMs : Nat
  text : String
deriving DecidableEq

structure SpeechTranscript where
  id : Nat
  track : Track
  segments : List TranscriptSegment
deriving DecidableEq

structure Turn where
  speaker : Speaker
  startMs : Nat
  endMs : Nat
  text : String
deriving DecidableEq

def strip (text : String) : String :=
  String.ofList (((text.toList.dropWhile isSpace).reverse.dropWhile isSpace).reverse)

def pieces (speaker : Speaker) (transcript : SpeechTranscript) : List Turn :=
  (transcript.segments.filter fun segment => !isBlank segment.text).map fun segment =>
    ⟨speaker, segment.startMs, segment.endMs, strip segment.text⟩

def mergeGapMs : Nat := 1500

/-- `(item[0], item[1])` -/
def startsBefore (first second : Turn) : Prop :=
  first.startMs < second.startMs ∨
    (first.startMs = second.startMs ∧ first.endMs ≤ second.endMs)

instance : DecidableRel startsBefore :=
  fun _ _ => inferInstanceAs (Decidable (_ ∨ _))

def addPiece : List Turn → Turn → List Turn
  | [], piece => [piece]
  | last :: earlier, piece =>
    if last.speaker = piece.speaker ∧ piece.startMs ≤ last.endMs + mergeGapMs then
      ⟨piece.speaker, last.startMs, max last.endMs piece.endMs,
        last.text ++ " " ++ piece.text⟩ :: earlier
    else piece :: last :: earlier

def buildTurns (microphone : SpeechTranscript) (systemAudio : Option SpeechTranscript) :
    List Turn :=
  let spoken := pieces .learner microphone ++ (systemAudio.map (pieces .other)).getD []
  ((spoken.insertionSort startsBefore).foldl addPiece []).reverse

/-- A row of `speech_analyses`. -/
structure SpeechAnalysis (μ : Type) where
  microphoneTranscriptId : Nat
  systemAudioTranscriptId : Option Nat
  turns : List Turn
  metrics : μ
deriving DecidableEq

/-- `by_track.get(track)` of the rows in the order of their identities. -/
def byTrack (rows : List SpeechTranscript) (track : Track) : Option SpeechTranscript :=
  ((rows.insertionSort fun first second => first.id ≤ second.id).filter
    fun row => row.track == track).getLast?

/-- `metrics_json(calculate_speech_metrics(...))`, or nothing where it raises. -/
abbrev SpeechMetrics (μ : Type) := SpeechTranscript → Option SpeechTranscript → Option μ

/-- What `process` computes from the rows it read, or nothing where it raises
`SpeechAnalysisInvalid`. -/
def computeAnalysis {μ : Type} (metrics : SpeechMetrics μ) (rows : List SpeechTranscript) :
    Option (SpeechAnalysis μ) := do
  let microphone ← byTrack rows .microphone
  let systemAudio := byTrack rows .systemAudio
  let report ← metrics microphone systemAudio
  some ⟨microphone.id, systemAudio.map SpeechTranscript.id,
    buildTurns microphone systemAudio, report⟩

/-! ## Workers -/

/-- How far a call of `process` has come. -/
inductive Phase
  | started
  /-- It has read these transcripts. -/
  | read (rows : List SpeechTranscript)
  /-- It has asked for the analysis row, and holds its lock if there was one. -/
  | asked (rows : List SpeechTranscript) (found : Bool)
  /-- It has committed an analysis of these transcripts. -/
  | committed (rows : List SpeechTranscript)
  /-- It has raised, having read these transcripts. -/
  | raised (rows : List SpeechTranscript)
deriving DecidableEq

def Phase.ended : Phase → Bool
  | started | read _ | asked _ _ => false
  | committed _ | raised _ => true

/-- A call of `process` for one transcript. -/
structure ProcessCall where
  transcriptId : Nat
  phase : Phase
deriving DecidableEq

/-- The rows of one recording and the calls for it. -/
structure Analysing (μ : Type) where
  transcripts : List SpeechTranscript
  analysis : Option (SpeechAnalysis μ)
  lock : Option Nat
  calls : List ProcessCall

variable {μ : Type}

def Analysing.setPhase (state : Analysing μ) (transcriptId : Nat) (phase : Phase) : Analysing μ :=
  { state with
    calls := state.calls.map fun call =>
      if call.transcriptId = transcriptId then { call with phase := phase } else call }

inductive AnalysisEvent
  | stored (id : Nat)
  | started (id : Nat)
  | read (id : Nat)
  | asked (id : Nat)
  | committed (id : Nat)
  | raised (id : Nat)

/-- One step: a transcript is stored, or a call makes its next statement.  A call
is named by the transcript it was made for. -/
inductive AnalysisStep (metrics : SpeechMetrics μ) :
    Analysing μ → AnalysisEvent → Analysing μ → Prop
  | stored {state : Analysing μ} (row : SpeechTranscript)
      (identity : ∀ other ∈ state.transcripts, other.id ≠ row.id)
      (track : ∀ other ∈ state.transcripts, other.track ≠ row.track) :
      AnalysisStep metrics state (.stored row.id)
        { state with transcripts := state.transcripts ++ [row] }
  | started {state : Analysing μ} {row : SpeechTranscript} (submitted : row ∈ state.transcripts)
      (fresh : ∀ call ∈ state.calls, call.transcriptId ≠ row.id) :
      AnalysisStep metrics state (.started row.id)
        { state with calls := state.calls ++ [⟨row.id, .started⟩] }
  | read {state : Analysing μ} {id : Nat} (call : ⟨id, .started⟩ ∈ state.calls) :
      AnalysisStep metrics state (.read id) (state.setPhase id (.read state.transcripts))
  /-- The rows that were read cannot be analysed. -/
  | invalid {state : Analysing μ} {id : Nat} {rows : List SpeechTranscript}
      (call : ⟨id, .read rows⟩ ∈ state.calls) (refused : computeAnalysis metrics rows = none) :
      AnalysisStep metrics state (.raised id) (state.setPhase id (.raised rows))
  /-- The row is there and nobody else holds its lock. -/
  | locked {state : Analysing μ} {id : Nat} {rows : List SpeechTranscript}
      (call : ⟨id, .read rows⟩ ∈ state.calls) (accepted : computeAnalysis metrics rows ≠ none)
      (row : state.analysis ≠ none) (free : state.lock = none) :
      AnalysisStep metrics state (.asked id)
        ({ state with lock := some id }.setPhase id (.asked rows true))
  | missing {state : Analysing μ} {id : Nat} {rows : List SpeechTranscript}
      (call : ⟨id, .read rows⟩ ∈ state.calls) (accepted : computeAnalysis metrics rows ≠ none)
      (row : state.analysis = none) :
      AnalysisStep metrics state (.asked id) (state.setPhase id (.asked rows false))
  | updated {state : Analysing μ} {id : Nat} {rows : List SpeechTranscript}
      {analysis : SpeechAnalysis μ} (call : ⟨id, .asked rows true⟩ ∈ state.calls)
      (computed : computeAnalysis metrics rows = some analysis) :
      AnalysisStep metrics state (.committed id)
        ({ state with analysis := some analysis, lock := none }.setPhase id (.committed rows))
  | inserted {state : Analysing μ} {id : Nat} {rows : List SpeechTranscript}
      {analysis : SpeechAnalysis μ} (call : ⟨id, .asked rows false⟩ ∈ state.calls)
      (computed : computeAnalysis metrics rows = some analysis) (row : state.analysis = none) :
      AnalysisStep metrics state (.committed id)
        ({ state with analysis := some analysis }.setPhase id (.committed rows))
  /-- Another call has inserted the row since this one asked for it. -/
  | collided {state : Analysing μ} {id : Nat} {rows : List SpeechTranscript}
      (call : ⟨id, .asked rows false⟩ ∈ state.calls) (row : state.analysis ≠ none) :
      AnalysisStep metrics state (.raised id) (state.setPhase id (.raised rows))

def emptyAnalysing (μ : Type) : Analysing μ where
  transcripts := []
  analysis := none
  lock := none
  calls := []

end TamForge.Speech
