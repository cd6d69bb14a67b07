import TamForge.Speech.Schemas

/-!
# The payload of a local transcript

`TranscriptSubmitPayload.make` (`RecordingUploadModels.swift`), and how the
server reads its segments (`speech/schemas.py`).  A probability is the exact
value of its Double.
-/

namespace TamForge.Transcripts.Payload

open Speech (Track)
open Speech.Schemas

structure SpeechTranscribedWord where
  text : String
  startMilliseconds : Int
  endMilliseconds : Int
  probability : Rat

structure SpeechTranscribedSegment where
  text : String
  startMilliseconds : Int
  endMilliseconds : Int
  words : List SpeechTranscribedWord

structure TranscriptWordPayload where
  text : String
  startMilliseconds : Int
  endMilliseconds : Int
  probability : Rat
deriving DecidableEq

structure TranscriptSegmentPayload where
  text : String
  startMilliseconds : Int
  endMilliseconds : Int
  words : List TranscriptWordPayload

structure TranscriptSubmitPayload where
  track : Track
  segments : List TranscriptSegmentPayload

/-- The loop of `normalizedWords`, from the end of the word before. -/
def normalizedFrom (segmentStart segmentEnd previousEnd : Int) :
    List SpeechTranscribedWord → List TranscriptWordPayload
  | [] => []
  | word :: rest =>
    if word.text.isEmpty then normalizedFrom segmentStart segmentEnd previousEnd rest
    else
      let clampedStart := min (max segmentStart word.startMilliseconds) segmentEnd
      let clampedEnd := max (min segmentEnd word.endMilliseconds) segmentStart
      let start := max clampedStart previousEnd
      let stop := max clampedEnd start
      ⟨word.text, start, stop, word.probability⟩ ::
        normalizedFrom segmentStart segmentEnd stop rest

def normalizedWords (words : List SpeechTranscribedWord) (segmentStart segmentEnd : Int) :
    List TranscriptWordPayload :=
  normalizedFrom segmentStart segmentEnd segmentStart words

def makeSegment (segment : SpeechTranscribedSegment) : TranscriptSegmentPayload where
  text := segment.text
  startMilliseconds := segment.startMilliseconds
  endMilliseconds := segment.endMilliseconds
  words := normalizedWords segment.words segment.startMilliseconds segment.endMilliseconds

def make (track : Track) (segments : List SpeechTranscribedSegment) : TranscriptSubmitPayload where
  track := track
  segments := segments.map makeSegment

/-! ## The server -/

/-- A value outside the bounds of its field, or what a validator raises. -/
inductive Refusal
  | field
  | value (message : String)

def Milliseconds (value : Int) : Prop := 0 ≤ value ∧ value ≤ maxTranscriptMs

instance (text : String) : Decidable (BoundedText text) := inferInstanceAs (Decidable (_ ∧ _))

instance (value : Int) : Decidable (Milliseconds value) := inferInstanceAs (Decidable (_ ∧ _))

theorem Milliseconds.toNat_le {value : Int} (h : Milliseconds value) :
    value.toNat ≤ maxTranscriptMs :=
  Int.toNat_le.mpr h.2

def readWord (word : TranscriptWordPayload) : Except Refusal TranscriptWord :=
  if hfields : BoundedText word.text ∧ Milliseconds word.startMilliseconds ∧
      Milliseconds word.endMilliseconds ∧ 0 ≤ word.probability ∧ word.probability ≤ 1 then
    if hspan : word.startMilliseconds ≤ word.endMilliseconds then
      .ok ⟨word.text, word.startMilliseconds.toNat, word.endMilliseconds.toNat, hfields.1,
        hfields.2.1.toNat_le, hfields.2.2.1.toNat_le, Int.toNat_le_toNat hspan⟩
    else .error (.value "word end_ms cannot precede start_ms")
  else .error .field

def readSegment (segment : TranscriptSegmentPayload) : Except Refusal TranscriptSegment := do
  let words ← segment.words.mapM readWord
  let startMs := segment.startMilliseconds.toNat
  let endMs := segment.endMilliseconds.toNat
  if hfields : BoundedText segment.text ∧ Milliseconds segment.startMilliseconds ∧
      Milliseconds segment.endMilliseconds ∧ words.length ≤ maxWordsPerTranscript then
    if hspan : segment.startMilliseconds ≤ segment.endMilliseconds then
      if hcontained : ∀ word ∈ words, startMs ≤ word.startMs ∧ word.endMs ≤ endMs then
        if hchronological : words.IsChain fun previous current =>
            previous.endMs ≤ current.startMs then
          .ok ⟨segment.text, startMs, endMs, words, hfields.1, hfields.2.1.toNat_le,
            hfields.2.2.1.toNat_le, hfields.2.2.2, Int.toNat_le_toNat hspan, hcontained,
            hchronological⟩
        else .error (.value "words must be chronological within a segment")
      else .error (.value "word must be contained within its segment span")
    else .error (.value "segment end_ms cannot precede start_ms")
  else .error .field

/-- `TranscriptSubmitCommand`, up to `validate_segments`. -/
def readCommand (payload : TranscriptSubmitPayload) : Except Refusal TranscriptSubmitCommand := do
  let segments ← payload.segments.mapM readSegment
  if hlength : segments.length ≤ maxSegmentsPerTranscript then
    if hchronological : segments.IsChain fun previous current =>
        previous.endMs ≤ current.startMs then
      if hwords : (segments.map fun segment => segment.words.length).sum ≤
          maxWordsPerTranscript then
        .ok ⟨payload.track, segments, hlength, hchronological, hwords⟩
      else .error (.value "transcript exceeds the maximum word count")
    else .error (.value "segments must be chronological")
  else .error .field

end TamForge.Transcripts.Payload
