import TamForge.Memory.Models
import TamForge.ProofSupport.Decimals
import TamForge.ProofSupport.Dicts

/-!
# The benchmark of alignment engines

`adjudicated_reference` of `speech/evaluation/goldset.py` and `benchmark` of
`speech/pronunciation/candidates.py`.  `str.casefold` is a parameter, and the
floats of a measurement are rationals.
-/

namespace TamForge.Speech.Pronunciation

open Models ProofSupport
open Memory (isWhiteSpace)

/-! ## The gold set -/

/-- `Token`: 1 to 64 characters, none of them white space. -/
def isToken (text : String) : Bool :=
  decide (0 < text.length) && decide (text.length ≤ 64) &&
    text.toList.all fun c => !isWhiteSpace c

structure ReferenceWord where
  text : String
  startMs : Nat
  endMs : Nat
  token : isToken text = true
  span : startMs ≤ endMs

structure Adjudication where
  wordIndex : Nat
  listenedBy : String
  decidedAt : Instant
  heard : String
  token : isToken heard = true

/-- `_reference_is_a_timeline`, behind a word that ended at `previousEnd`. -/
def isTimeline (durationMs : Nat) : Nat → List ReferenceWord → Bool
  | previousEnd, [] => decide (previousEnd ≤ durationMs)
  | previousEnd, word :: rest =>
    decide (previousEnd ≤ word.startMs) && isTimeline durationMs word.endMs rest

/-- A validated `GoldRecording`. -/
structure GoldRecording where
  recordingId : String
  durationMs : Nat
  reference : List ReferenceWord
  adjudications : List Adjudication
  scored : reference ≠ []
  timeline : isTimeline durationMs 0 reference = true
  point_at_words : ∀ decision ∈ adjudications, decision.wordIndex < reference.length
  once : (adjudications.map fun decision => (decision.wordIndex, decision.listenedBy)).Nodup

/-- The loop of `adjudicated_reference`: the latest decision on each word, and of
simultaneous ones the first. -/
def latestDecisions (adjudications : List Adjudication) : List (Nat × Adjudication) :=
  adjudications.foldl (fun latest decision =>
    if (Dict.get? latest decision.wordIndex).all fun current =>
        decide (current.decidedAt < decision.decidedAt) then
      Dict.set latest decision.wordIndex decision
    else latest) []

def ReferenceWord.heardAs (word : ReferenceWord) (decision : Option Adjudication) :
    ReferenceWord :=
  match decision with
  | some decision => { word with text := decision.heard, token := decision.token }
  | none => word

def adjudicatedReference (recording : GoldRecording) : List ReferenceWord :=
  recording.reference.zipIdx.map fun entry =>
    entry.1.heardAs (Dict.get? (latestDecisions recording.adjudications) entry.2)

/-! ## Candidates -/

inductive License
  | mit | bsd2 | bsd3 | apache2 | proprietary
deriving DecidableEq

def License.text : License → String
  | mit => "MIT"
  | bsd2 => "BSD-2-Clause"
  | bsd3 => "BSD-3-Clause"
  | apache2 => "Apache-2.0"
  | proprietary => "proprietary"

def permittedLicenses : List License := [.mit, .bsd2, .bsd3, .apache2]

def hostBudgetMb : Int := 768

structure AccuracyMeasurement where
  goldSetSha256 : String
  recordings : Nat
  meanBoundaryErrorMs : Rat
  wordsAligned : Nat
  wordsUnaligned : Nat

structure AlignmentCandidate where
  key : String
  name : String
  license : License
  runsOnHost : Bool
  sendsAudioOffHost : Bool
  residentMemoryMb : Int
  cpuSecondsPerAudioMinute : Rat
  producesPhoneScores : Bool
  accuracy : Option AccuracyMeasurement

def AlignmentCandidate.ineligibility (candidate : AlignmentCandidate) : List String :=
  [(!candidate.runsOnHost || candidate.sendsAudioOffHost,
      "original audio would leave the host"),
    (!permittedLicenses.contains candidate.license,
      "license " ++ candidate.license.text ++ " does not permit a private deployment"),
    (decide (hostBudgetMb < candidate.residentMemoryMb),
      "needs " ++ toString candidate.residentMemoryMb ++ " MB, the speech worker has " ++
        toString hostBudgetMb ++ " MB")].filterMap fun entry =>
    if entry.1 then some entry.2 else none

structure AlignedWord where
  text : String
  startMs : Int
  endMs : Int

/-- Runs one candidate over one recording. -/
abbrev Aligner := GoldRecording → List AlignedWord

/-- `CandidateError`, with its message. -/
structure CandidateError where
  message : String

/-! ## The benchmark -/

section Benchmark

variable (casefold : String → String)

/-- The variables of the loops. -/
structure Tally where
  errors : List Rat
  aligned : Nat
  unaligned : Nat

def boundaryError (found : AlignedWord) (word : ReferenceWord) : Rat :=
  (((found.startMs - word.startMs).natAbs + (found.endMs - word.endMs).natAbs : Nat) : Rat) / 2

def hypothesis (words : List AlignedWord) : List (String × AlignedWord) :=
  Dict.ofItems (words.map fun word => (casefold word.text, word))

def Tally.word (words : List (String × AlignedWord)) (tally : Tally) (word : ReferenceWord) :
    Tally :=
  match Dict.get? words (casefold word.text) with
  | none => { tally with unaligned := tally.unaligned + 1 }
  | some found =>
    { tally with
      aligned := tally.aligned + 1, errors := tally.errors ++ [boundaryError found word] }

def Tally.recording (aligner : Aligner) (tally : Tally) (recording : GoldRecording) : Tally :=
  (adjudicatedReference recording).foldl
    (Tally.word casefold (hypothesis casefold (aligner recording))) tally

/-- `round(mean(errors), 3)` -/
def meanError (errors : List Rat) : Rat :=
  Decimals.quantizeHalfEven 3 (errors.sum / errors.length)

def benchmark (candidate : AlignmentCandidate) (recordings : List GoldRecording)
    (aligner : Aligner) (goldSetSha256 : String) : Except CandidateError AlignmentCandidate := do
  raiseFirst [
    (!candidate.ineligibility.isEmpty,
      ⟨candidate.key ++ " is ineligible; it is not benchmarked on private audio"⟩),
    (recordings.isEmpty, ⟨"an empty gold set measures nothing"⟩)]
  let tally := recordings.foldl (Tally.recording casefold aligner) ⟨[], 0, 0⟩
  raiseFirst [(tally.aligned == 0,
    ⟨candidate.key ++ " aligned no words; nothing to measure"⟩)]
  return { candidate with
    accuracy := some {
      goldSetSha256 := goldSetSha256,
      recordings := recordings.length,
      meanBoundaryErrorMs := meanError tally.errors,
      wordsAligned := tally.aligned,
      wordsUnaligned := tally.unaligned } }

end Benchmark

end TamForge.Speech.Pronunciation
