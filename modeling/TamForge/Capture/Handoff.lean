import TamForge.Capture.Models
import TamForge.ProofSupport.Run

/-!
# The capture handoff

`BoundedCaptureHandoffQueue` between the callback thread, which offers samples
and records what it had to drop, and the processing thread, which takes batches
until the queue is empty.  Every method runs under the lock of the queue, so a
run is an interleaving of their calls.
-/

namespace TamForge.Capture

open ProofSupport

/-- `RecordingDroppedSourceInterval.merged(with:)` of two intervals of one track. -/
def RecordingDroppedSourceInterval.merged (interval next : RecordingDroppedSourceInterval) :
    RecordingDroppedSourceInterval where
  track := interval.track
  startPresentationNanoseconds :=
    min interval.startPresentationNanoseconds next.startPresentationNanoseconds
  endPresentationNanoseconds :=
    max interval.endPresentationNanoseconds next.endPresentationNanoseconds

/-- A retained sample buffer: audio of some duration, whose source range is an
interval. -/
structure RetainedAudioSample where
  range : RecordingDroppedSourceRange
  interval : RecordingDroppedSourceInterval
  interval_eq : range.interval? = some interval
  lasts : interval.startPresentationNanoseconds < interval.endPresentationNanoseconds
deriving DecidableEq

namespace RetainedAudioSample

def track (sample : RetainedAudioSample) : RecordingTrackKind := sample.interval.track

def start (sample : RetainedAudioSample) : Int := sample.interval.startPresentationNanoseconds

def stop (sample : RetainedAudioSample) : Int := sample.interval.endPresentationNanoseconds

end RetainedAudioSample

inductive CaptureHandoff
  | retained (sample : RetainedAudioSample)
  | dropped (interval : RecordingDroppedSourceInterval)

namespace CaptureHandoff

def interval : CaptureHandoff → RecordingDroppedSourceInterval
  | retained sample => sample.interval
  | dropped interval => interval

def track (item : CaptureHandoff) : RecordingTrackKind := item.interval.track

def start (item : CaptureHandoff) : Int := item.interval.startPresentationNanoseconds

def stop (item : CaptureHandoff) : Int := item.interval.endPresentationNanoseconds

end CaptureHandoff

inductive CaptureHandoffOfferResult
  | accepted | full | closed

/-- `BoundedCaptureHandoffQueue` -/
structure HandoffQueue where
  capacity : Nat
  retained : List RetainedAudioSample
  droppedByTrack : RecordingTrackKind → Option RecordingDroppedSourceInterval
  drainScheduled : Bool
  closed : Bool

namespace HandoffQueue

def init (capacity : Nat) : HandoffQueue where
  capacity := capacity
  retained := []
  droppedByTrack := fun _ => none
  drainScheduled := false
  closed := false

def offer (queue : HandoffQueue) (sample : RetainedAudioSample) :
    CaptureHandoffOfferResult × HandoffQueue :=
  if queue.closed then (.closed, queue)
  else if queue.retained.length < queue.capacity then
    (.accepted, { queue with retained := queue.retained ++ [sample] })
  else (.full, queue)

def close (queue : HandoffQueue) : HandoffQueue :=
  { queue with closed := true }

/-- `record(dropped:)` -/
def record (queue : HandoffQueue) (range : RecordingDroppedSourceRange) : Bool × HandoffQueue :=
  match range.interval? with
  | none => (false, queue)
  | some interval =>
    if queue.closed then (false, queue)
    else
      let merged := ((queue.droppedByTrack interval.track).map (·.merged interval)).getD interval
      (true, { queue with
        droppedByTrack := fun track =>
          if track = interval.track then some merged else queue.droppedByTrack track })

def scheduleDrainIfNeeded (queue : HandoffQueue) : Bool × HandoffQueue :=
  if queue.closed || queue.drainScheduled then (false, queue)
  else (true, { queue with drainScheduled := true })

def droppedIntervals (queue : HandoffQueue) : List RecordingDroppedSourceInterval :=
  match queue.droppedByTrack .microphone, queue.droppedByTrack .systemAudio with
  | none, none => []
  | some first, none => [first]
  | none, some second => [second]
  | some first, some second =>
    if second.startPresentationNanoseconds < first.startPresentationNanoseconds then
      [second, first]
    else [first, second]

def isEmpty (queue : HandoffQueue) : Bool :=
  queue.retained.isEmpty && (queue.droppedByTrack .microphone).isNone &&
    (queue.droppedByTrack .systemAudio).isNone

def takeDrainBatch (queue : HandoffQueue) : Option (List CaptureHandoff) × HandoffQueue :=
  if queue.isEmpty then (none, { queue with drainScheduled := false })
  else (some (queue.retained.map .retained ++ queue.droppedIntervals.map .dropped),
    { queue with retained := [], droppedByTrack := fun _ => none })

end HandoffQueue

/-! ## Runs -/

/-- Where the callback stands: between two samples, with a sample that was refused, or
about to schedule a drain. -/
inductive CallbackPhase
  | idle
  | refused (sample : RetainedAudioSample)
  | scheduling

/-- The queue with both threads; `blocks` are the drains enqueued for processing.
`offered` and `batches` keep what was offered before the queue was closed and
what was taken. -/
structure HandoffState where
  queue : HandoffQueue
  phase : CallbackPhase
  blocks : Nat
  draining : Bool
  offered : List RetainedAudioSample
  batches : List (List CaptureHandoff)

def HandoffState.init (capacity : Nat) : HandoffState where
  queue := HandoffQueue.init capacity
  phase := .idle
  blocks := 0
  draining := false
  offered := []
  batches := []

inductive HandoffEvent
  | offer (sample : RetainedAudioSample)
  | record
  | schedule
  | close
  | finish
  | startDrain
  | take

/-- One call.  The samples of a track follow each other in time.  `close` runs on
the callback queue, between two callbacks, and `finish` enqueues the last drain. -/
inductive HandoffStep (s : HandoffState) : HandoffEvent → HandoffState → Prop
  | accepted {sample : RetainedAudioSample} {queue : HandoffQueue} : s.phase = .idle →
      (∀ earlier ∈ s.offered, earlier.track = sample.track → earlier.stop ≤ sample.start) →
      s.queue.offer sample = (.accepted, queue) →
      HandoffStep s (.offer sample)
        { s with queue := queue, phase := .scheduling, offered := s.offered ++ [sample] }
  | full {sample : RetainedAudioSample} {queue : HandoffQueue} : s.phase = .idle →
      (∀ earlier ∈ s.offered, earlier.track = sample.track → earlier.stop ≤ sample.start) →
      s.queue.offer sample = (.full, queue) →
      HandoffStep s (.offer sample)
        { s with queue := queue, phase := .refused sample, offered := s.offered ++ [sample] }
  | refusedClosed {sample : RetainedAudioSample} {queue : HandoffQueue} : s.phase = .idle →
      s.queue.offer sample = (.closed, queue) →
      HandoffStep s (.offer sample) { s with queue := queue }
  | recorded {sample : RetainedAudioSample} {queue : HandoffQueue} : s.phase = .refused sample →
      s.queue.record sample.range = (true, queue) →
      HandoffStep s .record { s with queue := queue, phase := .scheduling }
  | unrecorded {sample : RetainedAudioSample} {queue : HandoffQueue} :
      s.phase = .refused sample → s.queue.record sample.range = (false, queue) →
      HandoffStep s .record { s with queue := queue, phase := .idle }
  | scheduled {queue : HandoffQueue} : s.phase = .scheduling →
      s.queue.scheduleDrainIfNeeded = (true, queue) →
      HandoffStep s .schedule { s with queue := queue, phase := .idle, blocks := s.blocks + 1 }
  | unscheduled {queue : HandoffQueue} : s.phase = .scheduling →
      s.queue.scheduleDrainIfNeeded = (false, queue) →
      HandoffStep s .schedule { s with queue := queue, phase := .idle }
  | close : s.phase = .idle → HandoffStep s .close { s with queue := s.queue.close }
  | finish : s.queue.closed = true → HandoffStep s .finish { s with blocks := s.blocks + 1 }
  | startDrain {blocks : Nat} : s.draining = false → s.blocks = blocks + 1 →
      HandoffStep s .startDrain { s with blocks := blocks, draining := true }
  | taken {batch : List CaptureHandoff} {queue : HandoffQueue} : s.draining = true →
      s.queue.takeDrainBatch = (some batch, queue) →
      HandoffStep s .take { s with queue := queue, batches := s.batches ++ [batch] }
  | drained {queue : HandoffQueue} : s.draining = true →
      s.queue.takeDrainBatch = (none, queue) →
      HandoffStep s .take { s with queue := queue, draining := false }

end TamForge.Capture
