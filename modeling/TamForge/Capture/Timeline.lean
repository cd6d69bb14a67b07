import Mathlib.Data.List.Sort
import Mathlib.Data.Rat.Floor
import Mathlib.Logic.Function.Basic
import TamForge.Capture.Models

/-!
# The capture pipeline

`RecordingTimeline.swift`: the timeline that places audio on a shared sample
axis, the accumulator that cuts it into records of a second, and the startup
gate in front of both.  A mutating call that throws keeps the changes it made
before, so each of them returns its state beside its result.
-/

namespace TamForge.Capture

open ProofSupport

/-! ## The timeline -/

/-- `convertedNanoseconds` of a time in seconds, which rounds toward zero. -/
def convertedNanoseconds (time : Rat) : Int :=
  if 0 ≤ time then ⌊time * 1000000000⌋ else ⌈time * 1000000000⌉

structure RecordingTimelineAcceptance where
  chunk : RecordingPCMChunk
  gap : Option RecordingGap
deriving DecidableEq

structure RecordingTimelineAssembler where
  originNanoseconds : Option Int
  trackEnds : RecordingTrackKind → Nat

namespace RecordingTimelineAssembler

def fresh : RecordingTimelineAssembler :=
  ⟨none, fun _ => 0⟩

def anchored (timeline : RecordingTimelineAssembler) (presentation : Int) :
    RecordingTimelineAssembler :=
  { timeline with
    originNanoseconds := some (timeline.originNanoseconds.getD presentation) }

def canonicalSampleStart (timeline : RecordingTimelineAssembler) (presentation : Int) :
    Except CaptureError Nat :=
  match timeline.originNanoseconds with
  | none => .error .arithmeticOverflow
  | some origin => do
      let delta := presentation - origin
      let scaled := delta * canonicalSampleRate
      raiseFirst [
        (!fitsInt64 delta, .trap),
        (decide (delta < 0), .timestampBeforeOrigin),
        (!fitsInt64 scaled, .arithmeticOverflow)]
      return (scaled / 1000000000).toNat

def boundedSampleCount (start stop : Nat) : Except CaptureError Nat := do
  raiseFirst [(!fitsInt64 ((stop : Int) - start), .arithmeticOverflow)]
  return stop - start

def place (timeline : RecordingTimelineAssembler) (unplaced : RecordingPCMChunk) :
    Except CaptureError RecordingTimelineAcceptance := do
  let sampleStart ← timeline.canonicalSampleStart unplaced.presentationNanoseconds
  let expectedStart := timeline.trackEnds unplaced.track
  raiseFirst [(decide (sampleStart < expectedStart), .overlappingRange)]
  let chunk := { unplaced with sampleStart := sampleStart }
  chunk.validated
  let gap :=
    if sampleStart = expectedStart then none
    else some ⟨chunk.track, expectedStart, sampleStart - expectedStart, .sourceDiscontinuity⟩
  raiseFirst [(!fitsInt64 chunk.sampleEnd, .arithmeticOverflow)]
  return ⟨chunk, gap⟩

def accept (timeline : RecordingTimelineAssembler) (unplaced : RecordingPCMChunk) :
    Except CaptureError RecordingTimelineAcceptance × RecordingTimelineAssembler :=
  let timeline := timeline.anchored unplaced.presentationNanoseconds
  match timeline.place unplaced with
  | .error error => (.error error, timeline)
  | .ok accepted =>
    (.ok accepted, { timeline with
      trackEnds := Function.update timeline.trackEnds unplaced.track accepted.chunk.sampleEnd })

/-- The gaps of a dropped interval on an anchored timeline, and the cursor after
them. -/
def placeDropped (timeline : RecordingTimelineAssembler)
    (interval : RecordingDroppedSourceInterval) (reason : RecordingGapReason) :
    Except CaptureError (List RecordingGap × Nat) := do
  let sourceStart ← timeline.canonicalSampleStart interval.startPresentationNanoseconds
  let sourceEnd ← timeline.canonicalSampleStart interval.endPresentationNanoseconds
  raiseFirst [(decide (sourceEnd < sourceStart), .invalidDroppedSourceRange)]
  let expectedStart := timeline.trackEnds interval.track
  if sourceEnd ≤ expectedStart then return ([], expectedStart)
  let callbackStart := max expectedStart sourceStart
  let missing ← boundedSampleCount expectedStart sourceStart
  let dropped ← boundedSampleCount callbackStart sourceEnd
  let hole := ⟨interval.track, expectedStart, missing, .sourceDiscontinuity⟩
  let overflow := ⟨interval.track, callbackStart, dropped, reason⟩
  return ((if expectedStart < sourceStart then [hole] else []) ++
    (if callbackStart < sourceEnd then [overflow] else []), sourceEnd)

/-- `accept(droppedSourceInterval:reason:)` -/
def acceptDropped (timeline : RecordingTimelineAssembler)
    (interval : RecordingDroppedSourceInterval) (reason : RecordingGapReason) :
    Except CaptureError (List RecordingGap) × RecordingTimelineAssembler :=
  let timeline := timeline.anchored interval.startPresentationNanoseconds
  match timeline.placeDropped interval reason with
  | .error error => (.error error, timeline)
  | .ok (gaps, cursor) =>
    (.ok gaps, { timeline with
      trackEnds := Function.update timeline.trackEnds interval.track cursor })

end RecordingTimelineAssembler

/-! ## The accumulator -/

namespace RecordingPCMChunk

/-- `canMerge`, where `sameText` is `==` of Swift strings: canonical
equivalence. -/
def canMerge (sameText : String → String → Bool) (current next : RecordingPCMChunk) : Bool :=
  fitsInt64 current.sampleEnd && current.track == next.track &&
    current.sampleEnd == next.sampleStart && current.format == next.format &&
    current.source.sampleRate.equals next.source.sampleRate &&
    current.source.channelCount == next.source.channelCount &&
    sameText current.source.deviceID next.source.deviceID &&
    sameText current.source.initialRoute next.source.initialRoute &&
    current.source.conversionVersion == next.source.conversionVersion

def merge (current next : RecordingPCMChunk) : Except CaptureError RecordingPCMChunk := do
  raiseFirst [(!fitsInt64 ((current.sampleCount : Int) + next.sampleCount), .arithmeticOverflow)]
  return { current with
    sampleCount := current.sampleCount + next.sampleCount,
    payload := current.payload ++ next.payload }

def slice (chunk : RecordingPCMChunk) (offset count : Nat) :
    Except CaptureError RecordingPCMChunk := do
  let scaledOffset : Int := offset * 1000000000
  let nanosecondOffset := scaledOffset / canonicalSampleRate
  let presentation := chunk.presentationNanoseconds + nanosecondOffset
  let sourcePresentation := chunk.source.presentationNanoseconds + nanosecondOffset
  raiseFirst [
    (!fitsInt64 scaledOffset, .arithmeticOverflow),
    (!fitsInt64 presentation || !fitsInt64 sourcePresentation ||
      !fitsInt64 (chunk.sampleStart + offset), .arithmeticOverflow)]
  return { chunk with
    presentationNanoseconds := presentation,
    sampleStart := chunk.sampleStart + offset,
    sampleCount := count,
    source := { chunk.source with presentationNanoseconds := sourcePresentation },
    payload := (chunk.payload.drop (offset * chunk.bytesPerFrame)).take
      (count * chunk.bytesPerFrame) }

/-- The loop that cuts whole seconds off a pending chunk: what it emits and what
stays pending. -/
def drain : Nat → RecordingPCMChunk →
    Except CaptureError (List RecordingPCMChunk) × Option RecordingPCMChunk
  | 0, pending => (.ok [], some pending)
  | rounds + 1, pending =>
    if pending.sampleCount < canonicalSampleRate then (.ok [], some pending)
    else
      match pending.slice 0 canonicalSampleRate with
      | .error error => (.error error, some pending)
      | .ok first =>
        if pending.sampleCount = canonicalSampleRate then (.ok [first], none)
        else
          match pending.slice canonicalSampleRate
              (pending.sampleCount - canonicalSampleRate) with
          | .error error => (.error error, some pending)
          | .ok rest =>
            let (emitted, left) := rest.drain rounds
            (emitted.map (first :: ·), left)

end RecordingPCMChunk

structure RecordingChunkAccumulator where
  pendingByTrack : RecordingTrackKind → Option RecordingPCMChunk

namespace RecordingChunkAccumulator

def fresh : RecordingChunkAccumulator :=
  ⟨fun _ => none⟩

def setPending (accumulator : RecordingChunkAccumulator) (track : RecordingTrackKind)
    (pending : Option RecordingPCMChunk) : RecordingChunkAccumulator :=
  ⟨Function.update accumulator.pendingByTrack track pending⟩

def cut (accumulator : RecordingChunkAccumulator) (chunk : RecordingPCMChunk)
    (track : RecordingTrackKind) :
    Except CaptureError (List RecordingPCMChunk) × RecordingChunkAccumulator :=
  let (emitted, pending) := chunk.drain (chunk.sampleCount / canonicalSampleRate)
  (emitted, accumulator.setPending track pending)

def accept (sameText : String → String → Bool) (accumulator : RecordingChunkAccumulator)
    (chunk : RecordingPCMChunk) :
    Except CaptureError (List RecordingPCMChunk) × RecordingChunkAccumulator :=
  match chunk.validated with
  | .error error => (.error error, accumulator)
  | .ok () =>
    match accumulator.pendingByTrack chunk.track with
    | none => accumulator.cut chunk chunk.track
    | some pending =>
      if pending.canMerge sameText chunk then
        match pending.merge chunk with
        | .error error => (.error error, accumulator)
        | .ok merged => accumulator.cut merged chunk.track
      else
        let (emitted, accumulator) := accumulator.cut chunk chunk.track
        (emitted.map (pending :: ·), accumulator)

def flush (accumulator : RecordingChunkAccumulator) (track : RecordingTrackKind) :
    List RecordingPCMChunk × RecordingChunkAccumulator :=
  ((accumulator.pendingByTrack track).toList, accumulator.setPending track none)

/-- `finish`: the pending chunks by their start and then by track. -/
def finish (accumulator : RecordingChunkAccumulator) :
    List RecordingPCMChunk × RecordingChunkAccumulator :=
  (([.microphone, .systemAudio].filterMap accumulator.pendingByTrack).insertionSort
    (fun left right => left.sampleStart < right.sampleStart ∨
      left.sampleStart = right.sampleStart ∧
        (left.track = .microphone ∨ right.track = .systemAudio)), fresh)

end RecordingChunkAccumulator

/-! ## Levels -/

/-- `RecordingLevelThrottle`, ten levels a second. -/
structure RecordingLevelThrottle where
  lastEmissionByTrack : RecordingTrackKind → Option Nat

namespace RecordingLevelThrottle

def fresh : RecordingLevelThrottle :=
  ⟨fun _ => none⟩

def shouldEmit (throttle : RecordingLevelThrottle) (chunk : RecordingPCMChunk) :
    Bool × RecordingLevelThrottle :=
  let emitted : RecordingLevelThrottle :=
    ⟨Function.update throttle.lastEmissionByTrack chunk.track (some chunk.sampleStart)⟩
  match throttle.lastEmissionByTrack chunk.track with
  | none => (true, emitted)
  | some lastEmission =>
    let distance : Int := (chunk.sampleStart : Int) - lastEmission
    if !fitsInt64 distance || decide (distance < (canonicalSampleRate / 10 : Nat)) then
      (false, throttle)
    else (true, emitted)

end RecordingLevelThrottle

/-! ## The pipeline -/

inductive StartupInputKind
  | chunk (chunk : RecordingPCMChunk) (normalizedLevel : Double)
  | droppedInterval (interval : RecordingDroppedSourceInterval) (reason : RecordingGapReason)
  | failure (interval : RecordingDroppedSourceInterval) (reason : RecordingGapReason)
      (failure : RecordingCaptureFailure)

namespace StartupInputKind

def track : StartupInputKind → RecordingTrackKind
  | .chunk audio _ => audio.track
  | .droppedInterval interval _ | .failure interval _ _ => interval.track

def anchor : StartupInputKind → Int
  | .chunk audio _ => audio.presentationNanoseconds
  | .droppedInterval interval _ | .failure interval _ _ => interval.startPresentationNanoseconds

def audioSamples : StartupInputKind → Nat
  | .chunk audio _ => audio.sampleCount
  | .droppedInterval .. | .failure .. => 0

end StartupInputKind

structure StartupInput where
  anchor : Int
  insertionIndex : Nat
  kind : StartupInputKind

structure StartupTrackUsage where
  inputCount : Nat
  audioSamples : Nat
  minimumAnchor : Int
  maximumAnchor : Int

def maximumStartupAudioSamplesPerTrack : Nat := canonicalSampleRate

def maximumStartupSpanNanoseconds : Int := 1000000000

def maximumStartupInputsPerTrack : Nat := 256

def StartupTrackUsage.bounded (usage : StartupTrackUsage) : Bool :=
  let span := usage.maximumAnchor - usage.minimumAnchor
  fitsInt64 span && decide (span ≤ maximumStartupSpanNanoseconds) &&
    decide (usage.inputCount ≤ maximumStartupInputsPerTrack) &&
    decide (usage.audioSamples ≤ maximumStartupAudioSamplesPerTrack)

structure RecordingCapturePipeline where
  timeline : RecordingTimelineAssembler
  accumulator : RecordingChunkAccumulator
  levelThrottle : RecordingLevelThrottle
  startupInputs : Option (List StartupInput)
  startupUsageByTrack : RecordingTrackKind → Option StartupTrackUsage
  startupFailed : Bool

namespace RecordingCapturePipeline

def fresh : RecordingCapturePipeline where
  timeline := .fresh
  accumulator := .fresh
  levelThrottle := .fresh
  startupInputs := some []
  startupUsageByTrack := fun _ => none
  startupFailed := false

def failStartup (pipeline : RecordingCapturePipeline) : RecordingCapturePipeline :=
  { pipeline with
    startupFailed := true, startupInputs := none, startupUsageByTrack := fun _ => none }

section Processing

variable (sameText : String → String → Bool)

/-- `process(_:normalizedLevel:)` -/
def processChunk (pipeline : RecordingCapturePipeline) (chunk : RecordingPCMChunk)
    (normalizedLevel : Double) :
    Except CaptureError (List RecordingCaptureEvent) × RecordingCapturePipeline :=
  match pipeline.timeline.accept chunk with
  | (.error error, timeline) => (.error error, { pipeline with timeline := timeline })
  | (.ok accepted, timeline) =>
    let (before, accumulator) := match accepted.gap with
      | none => ([], pipeline.accumulator)
      | some gap =>
        let (flushed, accumulator) := pipeline.accumulator.flush chunk.track
        (flushed.map RecordingCaptureEvent.chunk ++ [RecordingCaptureEvent.gap gap], accumulator)
    match accumulator.accept sameText accepted.chunk with
    | (.error error, accumulator) =>
      (.error error, { pipeline with timeline := timeline, accumulator := accumulator })
    | (.ok emitted, accumulator) =>
      let (emits, throttle) := pipeline.levelThrottle.shouldEmit accepted.chunk
      (.ok (before ++ emitted.map RecordingCaptureEvent.chunk ++
          if emits then [RecordingCaptureEvent.level chunk.track normalizedLevel] else []),
        { pipeline with
          timeline := timeline, accumulator := accumulator, levelThrottle := throttle })

/-- `process(droppedSourceInterval:reason:)` -/
def processDropped (pipeline : RecordingCapturePipeline)
    (interval : RecordingDroppedSourceInterval) (reason : RecordingGapReason) :
    Except CaptureError (List RecordingCaptureEvent) × RecordingCapturePipeline :=
  let (flushed, accumulator) := pipeline.accumulator.flush interval.track
  let (gaps, timeline) := pipeline.timeline.acceptDropped interval reason
  (gaps.map fun gaps => flushed.map RecordingCaptureEvent.chunk ++
      gaps.map RecordingCaptureEvent.gap,
    { pipeline with timeline := timeline, accumulator := accumulator })

def process (pipeline : RecordingCapturePipeline) :
    StartupInputKind →
      Except CaptureError (List RecordingCaptureEvent) × RecordingCapturePipeline
  | .chunk chunk normalizedLevel => pipeline.processChunk sameText chunk normalizedLevel
  | .droppedInterval interval reason => pipeline.processDropped interval reason
  | .failure interval reason failure =>
    let (events, pipeline) := pipeline.processDropped interval reason
    (events.map (· ++ [.failure failure]), pipeline)

def replay (pipeline : RecordingCapturePipeline) :
    List StartupInputKind →
      Except CaptureError (List RecordingCaptureEvent) × RecordingCapturePipeline
  | [] => (.ok [], pipeline)
  | kind :: rest =>
    match pipeline.process sameText kind with
    | (.error error, pipeline) => (.error error, pipeline)
    | (.ok events, pipeline) =>
      let (later, pipeline) := pipeline.replay rest
      (later.map (events ++ ·), pipeline)

end Processing

/-! ### The startup gate -/

def usageWith (pipeline : RecordingCapturePipeline) (kind : StartupInputKind) :
    StartupTrackUsage :=
  let usage := (pipeline.startupUsageByTrack kind.track).getD ⟨0, 0, kind.anchor, kind.anchor⟩
  { inputCount := usage.inputCount + 1,
    audioSamples := usage.audioSamples + kind.audioSamples,
    minimumAnchor := min usage.minimumAnchor kind.anchor,
    maximumAnchor := max usage.maximumAnchor kind.anchor }

def replayOrder (inputs : List StartupInput) : List StartupInputKind :=
  (inputs.insertionSort fun left right => left.anchor < right.anchor ∨
    left.anchor = right.anchor ∧ left.insertionIndex ≤ right.insertionIndex).map
      StartupInput.kind

/-- What the gate makes of an input: which inputs are processed now, or what is
answered instead, and the pipeline behind the gate. -/
inductive Gate
  | closed (events : List RecordingCaptureEvent)
  | opened (kinds : List StartupInputKind)

def gate (pipeline : RecordingCapturePipeline) (kind : StartupInputKind) :
    Gate × RecordingCapturePipeline :=
  if pipeline.startupFailed then (.closed [], pipeline)
  else
    match pipeline.startupInputs with
    | none => (.opened [kind], pipeline)
    | some inputs =>
      let usage := pipeline.usageWith kind
      if !usage.bounded then
        (.closed [.failure .requiredTracksMissing], pipeline.failStartup)
      else
        let inputs := inputs ++ [⟨kind.anchor, inputs.length, kind⟩]
        let usages := Function.update pipeline.startupUsageByTrack kind.track (some usage)
        if (usages .microphone).isNone || (usages .systemAudio).isNone then
          (.closed [], { pipeline with
            startupInputs := some inputs, startupUsageByTrack := usages })
        else
          (.opened (replayOrder inputs), { pipeline with
            startupInputs := none, startupUsageByTrack := fun _ => none })

/-- `gated`, where an open gate replays the one input. -/
def gated (sameText : String → String → Bool) (pipeline : RecordingCapturePipeline)
    (kind : StartupInputKind) :
    Except CaptureError (List RecordingCaptureEvent) × RecordingCapturePipeline :=
  match pipeline.gate kind with
  | (.closed events, pipeline) => (.ok events, pipeline)
  | (.opened kinds, pipeline) => pipeline.replay sameText kinds

def finish (pipeline : RecordingCapturePipeline) :
    List RecordingCaptureEvent × RecordingCapturePipeline :=
  if pipeline.startupFailed then ([], pipeline)
  else if pipeline.startupInputs.isSome then
    ([.failure .requiredTracksMissing], pipeline.failStartup)
  else
    let (pending, accumulator) := pipeline.accumulator.finish
    (pending.map RecordingCaptureEvent.chunk, { pipeline with accumulator := accumulator })

end RecordingCapturePipeline

inductive Call
  | accept (chunk : RecordingPCMChunk) (normalizedLevel : Double)
  | acceptDroppedSourceInterval (interval : RecordingDroppedSourceInterval)
      (reason : RecordingGapReason)
  | acceptFailureRange (range : RecordingDroppedSourceRange) (reason : RecordingGapReason)
      (failure : RecordingCaptureFailure)
  | acceptFailure (interval : RecordingDroppedSourceInterval) (reason : RecordingGapReason)
      (failure : RecordingCaptureFailure)
  | finish

def Call.input : Call → Except CaptureError (Option StartupInputKind)
  | accept chunk normalizedLevel => .ok (some (.chunk chunk normalizedLevel))
  | acceptDroppedSourceInterval interval reason => .ok (some (.droppedInterval interval reason))
  | acceptFailureRange range reason failure =>
    match range.interval? with
    | none => .error .invalidDroppedSourceRange
    | some interval => .ok (some (.failure interval reason failure))
  | acceptFailure interval reason failure => .ok (some (.failure interval reason failure))
  | finish => .ok none

def call (sameText : String → String → Bool) (pipeline : RecordingCapturePipeline)
    (request : Call) :
    Except CaptureError (List RecordingCaptureEvent) × RecordingCapturePipeline :=
  match request.input with
  | .error error => (.error error, pipeline)
  | .ok none =>
    let (events, pipeline) := pipeline.finish
    (.ok events, pipeline)
  | .ok (some kind) => pipeline.gated sameText kind

end TamForge.Capture
