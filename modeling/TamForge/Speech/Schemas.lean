import TamForge.Notifications.Models
import TamForge.Speech.Analysis

/-!
# The wire schemas of transcripts and of their analysis

`speech/schemas.py` with `_response` of `speech/analysis.py`.  A value carries
the bounds and the validators of its model, so that one outside them cannot be
built.  The probability of a word, the identity of the model and the derivation
are left out, and so is the limit on the size of a body.
-/

namespace TamForge.Speech.Schemas

open Models Notifications

def maxSegmentsPerTranscript : Nat := 4000
def maxWordsPerTranscript : Nat := 40000
def maxTextLength : Nat := 4096
def maxTranscriptMs : Nat := 7260000

def BoundedText (text : String) : Prop := 1 ≤ text.length ∧ text.length ≤ maxTextLength

structure TranscriptWord where
  text : String
  startMs : Nat
  endMs : Nat
  text_bounded : BoundedText text
  startMs_le : startMs ≤ maxTranscriptMs
  endMs_le : endMs ≤ maxTranscriptMs
  validate_span : startMs ≤ endMs

structure TranscriptSegment where
  text : String
  startMs : Nat
  endMs : Nat
  words : List TranscriptWord
  text_bounded : BoundedText text
  startMs_le : startMs ≤ maxTranscriptMs
  endMs_le : endMs ≤ maxTranscriptMs
  words_length : words.length ≤ maxWordsPerTranscript
  validate_span : startMs ≤ endMs
  words_contained : ∀ word ∈ words, startMs ≤ word.startMs ∧ word.endMs ≤ endMs
  words_chronological : words.IsChain fun previous current => previous.endMs ≤ current.startMs

structure TranscriptSubmitCommand where
  track : Track
  segments : List TranscriptSegment
  segments_length : segments.length ≤ maxSegmentsPerTranscript
  segments_chronological : segments.IsChain fun previous current =>
    previous.endMs ≤ current.startMs
  words_length : (segments.map fun segment => segment.words.length).sum ≤ maxWordsPerTranscript

def TranscriptSubmitCommand.tokens (command : TranscriptSubmitCommand) : List TranscriptWord :=
  command.segments.flatMap TranscriptSegment.words

/-- The row that keeps a command, as far as `build_turns` reads it. -/
def TranscriptSubmitCommand.stored (command : TranscriptSubmitCommand) (id : Nat) :
    SpeechTranscript where
  id := id
  track := command.track
  segments := command.segments.map fun segment => ⟨segment.startMs, segment.endMs, segment.text⟩

/-! ## Responses -/

inductive AnalysisStatus
  | notRequested | queued | running | published | needsAttention | canceled
deriving DecidableEq

/-- Times of at least 0 milliseconds. -/
structure SpeechTurnResponse where
  speaker : Speaker
  startMs : Nat
  endMs : Nat
  text : String

def maxTurns : Nat := 8000

structure SpeechAnalysisResponse (μ : Type) where
  status : AnalysisStatus
  failureCategory : Option ErrorCategory
  turns : List SpeechTurnResponse
  metrics : Option μ
  turns_length : turns.length ≤ maxTurns

def statusFromJob (job : Option BackgroundJob) : AnalysisStatus :=
  match job with
  | none => .notRequested
  | some job =>
    match job.state with
    | .queued => .queued
    | .running => .running
    | .succeeded => .published
    | .canceled => .canceled
    | .failed => .needsAttention

variable {μ : Type}

def responseTurns (analysis : Option (SpeechAnalysis μ)) : List SpeechTurnResponse :=
  match analysis with
  | none => []
  | some analysis => analysis.turns.map fun turn =>
    ⟨turn.speaker, turn.startMs, turn.endMs, turn.text⟩

/-- `_response`, or nothing where the model of the response refuses the turns. -/
def response (analysis : Option (SpeechAnalysis μ)) (job : Option BackgroundJob) :
    Option (SpeechAnalysisResponse μ) :=
  let status := statusFromJob job
  let failure := if status = .needsAttention then job.bind BackgroundJob.lastErrorCategory else none
  let status :=
    if analysis.isSome && (status == .notRequested || status == .published) then .published
    else status
  if hturns : (responseTurns analysis).length ≤ maxTurns then
    some ⟨status, failure, responseTurns analysis, analysis.map SpeechAnalysis.metrics, hturns⟩
  else none

end TamForge.Speech.Schemas
