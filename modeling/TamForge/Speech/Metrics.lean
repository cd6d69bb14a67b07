import Mathlib.Data.Rat.Defs
import TamForge.Speech.Schemas

/-!
# Words and fluency

`segment_words` of `speech/metrics/words.py` and `calculate_fluency` of
`speech/metrics/fluency.py`.  `str.casefold` and `str.isalnum` are parameters,
and the decimals are rationals whose division raises on zero.
-/

namespace TamForge.Speech.Metrics

open Models Speech.Schemas

/-! ## Words -/

def wordInner : List Char := ['\'', '’', '-']

structure RecognizedWord where
  text : String
  startMs : Nat
  endMs : Nat
deriving DecidableEq

section Words

variable (casefold : String → String) (isAlnum : Char → Bool)

def normalize (text : String) : String :=
  let kept := (casefold text).toList.filter fun c => isAlnum c || wordInner.contains c
  String.ofList
    ((kept.dropWhile wordInner.contains).reverse.dropWhile wordInner.contains).reverse

/-- `token.text[:1].isspace()` -/
def startsWord (token : TranscriptWord) : Bool :=
  token.text.toList.head?.any isSpace

def addToken : List (List TranscriptWord) → TranscriptWord → List (List TranscriptWord)
  | [], token => [[token]]
  | last :: earlier, token =>
    if startsWord token then [token] :: last :: earlier else (last ++ [token]) :: earlier

def groupTokens (tokens : List TranscriptWord) : List (List TranscriptWord) :=
  (tokens.foldl addToken []).reverse

def recognize (group : List TranscriptWord) : Option RecognizedWord :=
  match group.head?, group.getLast? with
  | some first, some last =>
    let text := normalize casefold isAlnum (String.join (group.map TranscriptWord.text))
    if text = "" then none else some ⟨text, first.startMs, last.endMs⟩
  | _, _ => none

def segmentWords (transcript : TranscriptSubmitCommand) : List RecognizedWord :=
  (groupTokens transcript.tokens).filterMap (recognize casefold isAlnum)

end Words

/-! ## Metrics -/

/-- The fields of `FluencyMetrics`. -/
inductive FluencyName
  | responseDurationSeconds | speechRateWpm | articulationRateWpm | phonationTimeRatio
  | meanLengthOfRun | pauseCount250To499Ms | pauseCount500To999Ms | pauseCount1000MsPlus
  | pauseSecondsTotal

inductive Unit
  | wordsPerMinute | seconds | ratio | words | count | milliseconds

def units : FluencyName → Unit
  | .responseDurationSeconds => .seconds
  | .speechRateWpm => .wordsPerMinute
  | .articulationRateWpm => .wordsPerMinute
  | .phonationTimeRatio => .ratio
  | .meanLengthOfRun => .words
  | .pauseCount250To499Ms => .count
  | .pauseCount500To999Ms => .count
  | .pauseCount1000MsPlus => .count
  | .pauseSecondsTotal => .seconds

inductive MeasurementStatus
  | validated | detectedMinimum

/-- `MeasuredMetric` or `UnavailableMetric` -/
inductive Metric
  | measured (name : FluencyName) (unit : Unit) (value : Rat) (status : MeasurementStatus)
  | unavailable (name : FluencyName) (unit : Unit) (reasonCode : String)

def Metric.value? : Metric → Option Rat
  | .measured _ _ value _ => some value
  | .unavailable .. => none

def measured (name : FluencyName) (value : Rat) : Metric :=
  .measured name (units name) value .validated

def unavailable (name : FluencyName) (reasonCode : String) : Metric :=
  .unavailable name (units name) reasonCode

@[simp] theorem value?_measured (name : FluencyName) (value : Rat) :
    (measured name value).value? = some value := rfl

@[simp] theorem value?_unavailable (name : FluencyName) (reasonCode : String) :
    (unavailable name reasonCode).value? = none := rfl

structure FluencyMetrics where
  responseDurationSeconds : Metric
  speechRateWpm : Metric
  articulationRateWpm : Metric
  phonationTimeRatio : Metric
  meanLengthOfRun : Metric
  pauseCount250To499Ms : Metric
  pauseCount500To999Ms : Metric
  pauseCount1000MsPlus : Metric
  pauseSecondsTotal : Metric

/-! ## Fluency -/

def minResponseSeconds : Rat := 10
def minRecognizedWords : Nat := 20
def pauseFloorMs : Int := 250
def shortPauseCeilingMs : Int := 500
def longPauseFloorMs : Int := 1000
def millisecondsPerSecond : Rat := 1000
def secondsPerMinute : Rat := 60

inductive DecimalError
  | divisionByZero

def divide (dividend divisor : Rat) : Except DecimalError Rat :=
  if divisor = 0 then .error .divisionByZero else .ok (dividend / divisor)

def RecognizedWord.lengthMs (word : RecognizedWord) : Int := (word.endMs : Int) - word.startMs

/-- `sum(word.end_ms - word.start_ms for word in words)` -/
def speakingMs (words : List RecognizedWord) : Int :=
  (words.map RecognizedWord.lengthMs).sum

def gaps (words : List RecognizedWord) : List Int :=
  words.zipWith (fun earlier later => max 0 ((later.startMs : Int) - earlier.endMs)) words.tail

def pauses (words : List RecognizedWord) : List Int :=
  (gaps words).filter fun gap => pauseFloorMs ≤ gap

def noFluency : FluencyMetrics where
  responseDurationSeconds := unavailable .responseDurationSeconds "no_recognized_words"
  speechRateWpm := unavailable .speechRateWpm "no_recognized_words"
  articulationRateWpm := unavailable .articulationRateWpm "no_recognized_words"
  phonationTimeRatio := unavailable .phonationTimeRatio "no_recognized_words"
  meanLengthOfRun := unavailable .meanLengthOfRun "no_recognized_words"
  pauseCount250To499Ms := unavailable .pauseCount250To499Ms "no_recognized_words"
  pauseCount500To999Ms := unavailable .pauseCount500To999Ms "no_recognized_words"
  pauseCount1000MsPlus := unavailable .pauseCount1000MsPlus "no_recognized_words"
  pauseSecondsTotal := unavailable .pauseSecondsTotal "no_recognized_words"

def bandCount (words : List RecognizedWord) (band : Int → Bool) : Rat :=
  (pauses words).countP band

/-- `words[-1].end_ms - words[0].start_ms` -/
def durationMs (first last : RecognizedWord) : Int := (last.endMs : Int) - first.startMs

def calculateFluency (words : List RecognizedWord) : Except DecimalError FluencyMetrics := do
  match words.head?, words.getLast? with
  | some first, some last =>
    let durationSeconds ← divide (durationMs first last) millisecondsPerSecond
    let speakingSeconds ← divide (speakingMs words) millisecondsPerSecond
    let wordCount : Rat := words.length
    let sampled := minResponseSeconds ≤ durationSeconds ∧ minRecognizedWords ≤ words.length
    let speechRate ←
      if sampled then do
        let minutes ← divide durationSeconds secondsPerMinute
        let rate ← divide wordCount minutes
        pure (measured .speechRateWpm rate)
      else pure (unavailable .speechRateWpm "insufficient_sample")
    let meanRun ←
      if sampled then do
        let run ← divide wordCount ((pauses words).length + 1 : Nat)
        pure (measured .meanLengthOfRun run)
      else pure (unavailable .meanLengthOfRun "insufficient_sample")
    let articulation ←
      if sampled then
        if 0 < speakingSeconds then do
          let minutes ← divide speakingSeconds secondsPerMinute
          let rate ← divide wordCount minutes
          pure (measured .articulationRateWpm rate)
        else pure (unavailable .articulationRateWpm "no_speaking_time")
      else pure (unavailable .articulationRateWpm "insufficient_sample")
    let phonation ←
      if sampled then
        if 0 < speakingSeconds then do
          let ratio ← divide speakingSeconds durationSeconds
          pure (measured .phonationTimeRatio ratio)
        else pure (unavailable .phonationTimeRatio "no_speaking_time")
      else pure (unavailable .phonationTimeRatio "insufficient_sample")
    let pauseSeconds ← divide ((pauses words).sum : Int) millisecondsPerSecond
    pure
      { responseDurationSeconds := measured .responseDurationSeconds durationSeconds
        speechRateWpm := speechRate
        articulationRateWpm := articulation
        phonationTimeRatio := phonation
        meanLengthOfRun := meanRun
        pauseCount250To499Ms := measured .pauseCount250To499Ms
          (bandCount words fun pause => pause < shortPauseCeilingMs)
        pauseCount500To999Ms := measured .pauseCount500To999Ms
          (bandCount words fun pause =>
            shortPauseCeilingMs ≤ pause ∧ pause < longPauseFloorMs)
        pauseCount1000MsPlus := measured .pauseCount1000MsPlus
          (bandCount words fun pause => longPauseFloorMs ≤ pause)
        pauseSecondsTotal := measured .pauseSecondsTotal pauseSeconds }
  | _, _ => pure noFluency

end TamForge.Speech.Metrics
