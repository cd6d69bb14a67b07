import TamForge.Capture.Models
import TamForge.ProofSupport.Run
import TamForge.Recordings.Schemas

/-!
# Stopping at the duration limit

`RecordingCoordinator` from the start of the capture to the end of `stop`, with
`PendingGapWrites` and the checks of `EncryptedRecordingSpool`.  The event
stream, the writer, the gap worker, the source and the limit timer take turns;
files are written without failure, and nobody but the timer stops the recording.
Time is counted in nanoseconds since 1970.
-/

namespace TamForge.Capture

open ProofSupport

/-! ## The disk policy -/

def maximumDurationSeconds : Nat := 120 * 60

def maximumCanonicalSamples : Nat := canonicalSampleRate * maximumDurationSeconds

def maximumGapEntriesPerTrack : Nat := maximumDurationSeconds

def maximumGapEntries : Nat := 2 * maximumGapEntriesPerTrack

def maximumRecordingBytes : Nat := 2684354560

def RecordingGap.sampleEnd (gap : RecordingGap) : Nat :=
  gap.sampleStart + gap.sampleCount

def permitsGap (gap : RecordingGap) (trackEntryCount totalEntryCount : Nat) : Bool :=
  decide (0 < gap.sampleCount) && decide (gap.sampleEnd ≤ maximumCanonicalSamples) &&
    decide (trackEntryCount < maximumGapEntriesPerTrack) &&
    decide (totalEntryCount < maximumGapEntries)

/-! ## The spool -/

inductive RecordingSpoolError
  | alreadySealed | invalidRecord | recordingLimitReached

structure Spool where
  records : List RecordingPCMChunk
  gaps : List RecordingGap
  storedBytes : Nat
  /-- Milliseconds of the start and the end, once sealed. -/
  sealedAt : Option (Nat × Nat)

namespace Spool

def empty : Spool where
  records := []
  gaps := []
  storedBytes := 0
  sealedAt := none

def recordBytes (chunk : RecordingPCMChunk) : Nat :=
  4 + 192 + 28 + chunk.source.deviceID.utf8ByteSize + chunk.source.initialRoute.utf8ByteSize +
    chunk.payload.length

def append (spool : Spool) (chunk : RecordingPCMChunk) : Except RecordingSpoolError Spool :=
  if spool.sealedAt.isSome then .error .alreadySealed
  else if !chunk.validated.isOk then .error .invalidRecord
  else if canonicalSampleRate < chunk.sampleCount ||
      maximumCanonicalSamples < chunk.sampleEnd then .error .invalidRecord
  else if 512 < chunk.source.deviceID.utf8ByteSize ||
      512 < chunk.source.initialRoute.utf8ByteSize then .error .invalidRecord
  else if maximumRecordingBytes < spool.storedBytes + recordBytes chunk then
    .error .recordingLimitReached
  else .ok { spool with
    records := spool.records ++ [chunk]
    storedBytes := spool.storedBytes + recordBytes chunk }

/-- `gapJournalEntriesByTrack` -/
def gapEntries (spool : Spool) (track : RecordingTrackKind) : Nat :=
  spool.gaps.countP fun gap => gap.track = track

/-- `record(gap:)`, which does nothing once sealed. -/
def record (spool : Spool) (gap : RecordingGap) : Except RecordingSpoolError Spool :=
  if spool.sealedAt.isSome then .ok spool
  else if permitsGap gap (spool.gapEntries gap.track) spool.gaps.length then
    .ok { spool with gaps := spool.gaps ++ [gap] }
  else .error .invalidRecord

/-- `Int64((date.timeIntervalSince1970 * 1000).rounded())` -/
def milliseconds (date : Nat) : Nat :=
  (date + 500000) / 1000000

def sealWith (spool : Spool) (startedAt endedAt : Nat) : Spool :=
  { spool with sealedAt := some (milliseconds startedAt, milliseconds endedAt) }

def trackLength (spool : Spool) (track : RecordingTrackKind) : Nat :=
  ((spool.records.filter (·.track = track)).map RecordingPCMChunk.sampleEnd ++
    (spool.gaps.filter (·.track = track)).map RecordingGap.sampleEnd).foldr max 0

end Spool

/-! ## Gaps that wait to be written -/

def RecordingGap.merge (current next : RecordingGap) : Option RecordingGap :=
  if current.track = next.track ∧ current.reason = next.reason ∧
      fitsInt64 current.sampleEnd = true ∧ fitsInt64 next.sampleEnd = true ∧
      next.sampleStart ≤ current.sampleEnd ∧ current.sampleStart ≤ next.sampleEnd then
    some {
      track := current.track
      sampleStart := min current.sampleStart next.sampleStart
      sampleCount := max current.sampleEnd next.sampleEnd -
        min current.sampleStart next.sampleStart
      reason := current.reason }
  else none

structure PendingGapWrites where
  pending : List RecordingGap
  /-- The rest of the batch that the worker has taken. -/
  batch : List RecordingGap
  storageFailure : Bool

namespace PendingGapWrites

def empty : PendingGapWrites where
  pending := []
  batch := []
  storageFailure := false

/-- `register(gap:spool:)`; one interval for each track and reason. -/
def register (writes : PendingGapWrites) (gap : RecordingGap) : PendingGapWrites :=
  if writes.storageFailure then writes
  else
    match writes.pending.find? fun other => other.track = gap.track && other.reason = gap.reason with
    | some existing =>
      match existing.merge gap with
      | some merged => { writes with pending := writes.pending.erase existing ++ [merged] }
      | none => { writes with storageFailure := true }
    | none =>
      if writes.pending.length < 12 then { writes with pending := writes.pending ++ [gap] }
      else { writes with storageFailure := true }

/-- `flush` comes to an end: nothing is left to write, or a write has failed. -/
def settled (writes : PendingGapWrites) : Bool :=
  writes.storageFailure || (writes.pending.isEmpty && writes.batch.isEmpty)

end PendingGapWrites

def RecordingGapReason.rank : RecordingGapReason → Nat
  | .callbackOverflow => 0
  | .corruptSpoolRecord => 1
  | .formatChange => 2
  | .missingAudio => 3
  | .routeChange => 4
  | .sourceDiscontinuity => 5

def RecordingTrackKind.rank : RecordingTrackKind → Nat
  | .microphone => 0
  | .systemAudio => 1

/-- The order in which a batch is written. -/
def RecordingGap.before (left right : RecordingGap) : Bool :=
  if left.track ≠ right.track then decide (left.track.rank < right.track.rank)
  else if left.sampleStart ≠ right.sampleStart then
    decide (left.sampleStart < right.sampleStart)
  else decide (left.reason.rank ≤ right.reason.rank)

/-! ## The coordinator -/

inductive RecordingPhase
  | preflighting
  | recording
  /-- Set by `stop`, or by `failActiveRecording`, which end in different ways. -/
  | stopping (failed : Bool)
  | needsAttention (message : String)
deriving DecidableEq

structure Recorder where
  phase : RecordingPhase
  now : Nat
  startedAt : Nat
  sourceRunning : Bool
  /-- The events of the stream that the writer has not taken yet. -/
  stream : List RecordingCaptureEvent
  gapWrites : PendingGapWrites
  spool : Spool
  activeStorageFailure : Bool
  fatalCaptureFailure : Bool

/-- `bufferingOldest(64)` -/
def streamLimit : Nat := 64

def droppedGap : RecordingCaptureEvent → Option RecordingGap
  | .chunk chunk => some ⟨chunk.track, chunk.sampleStart, chunk.sampleCount, .callbackOverflow⟩
  | .gap gap => some gap
  | .level _ _ => none
  | .failure _ => none

namespace Recorder

def starting (now : Nat) : Recorder where
  phase := .preflighting
  now := now
  startedAt := now
  sourceRunning := true
  stream := []
  gapWrites := .empty
  spool := .empty
  activeStorageFailure := false
  fatalCaptureFailure := false

/-- `receive`: an event for which the stream has no room is dropped. -/
def yield (s : Recorder) (event : RecordingCaptureEvent) : Recorder :=
  if s.stream.length < streamLimit then { s with stream := s.stream ++ [event] }
  else
    match droppedGap event with
    | some gap => { s with gapWrites := s.gapWrites.register gap }
    | none => s

/-- `failActiveRecording` -/
def failActive (s : Recorder) : Recorder :=
  if s.phase = .recording then { s with phase := .stopping true } else s

def writeFailed (s : Recorder) : Recorder :=
  { s with activeStorageFailure := true }.failActive

def consume (s : Recorder) : RecordingCaptureEvent → Recorder
  | .chunk chunk =>
    match s.spool.append chunk with
    | .ok spool => { s with spool := spool }
    | .error _ => s.writeFailed
  | .gap gap =>
    match s.spool.record gap with
    | .ok spool => { s with spool := spool }
    | .error _ => s.writeFailed
  | .level _ _ => s
  | .failure failure =>
    let s := if failure = .requiredTracksMissing then { s with fatalCaptureFailure := true } else s
    if failure ≠ .callbackOverflow then s.failActive else s

def persist (s : Recorder) (gap : RecordingGap) (rest : List RecordingGap) : Recorder :=
  match s.spool.record gap with
  | .ok spool => { s with spool := spool, gapWrites := { s.gapWrites with batch := rest } }
  | .error _ =>
    { s with gapWrites := { s.gapWrites with batch := [], storageFailure := true } }

/-- The end of `stop` and of `finishFailedRecording`, when all is written. -/
def finish (s : Recorder) (message : String) : Recorder :=
  if s.activeStorageFailure || s.gapWrites.storageFailure || s.fatalCaptureFailure then
    { s with phase := .needsAttention "Recording needs recovery" }
  else
    { s with
      spool := s.spool.sealWith s.startedAt s.now
      phase := .needsAttention message }

def drained (s : Recorder) : Bool :=
  !s.sourceRunning && s.stream.isEmpty && s.gapWrites.settled

end Recorder

def limitNanoseconds : Nat := maximumDurationSeconds * 1000000000

inductive RecorderEvent
  | elapse (nanoseconds : Nat)
  | yield (event : RecordingCaptureEvent)
  | consume (event : RecordingCaptureEvent)
  /-- `phase = .recording`, and with it the limit timer. -/
  | began
  | takeBatch
  | persist (gap : RecordingGap)
  /-- The timer calls `stop(reason: "120-minute recording limit")`. -/
  | limit
  | sourceStopped
  /-- That `stop` returns. -/
  | stopped
  | failed

inductive Recorder.Step : Recorder → RecorderEvent → Recorder → Prop
  | elapse {s : Recorder} (nanoseconds : Nat) :
      Step s (.elapse nanoseconds) { s with now := s.now + nanoseconds }
  | yield {s : Recorder} (event : RecordingCaptureEvent) : s.sourceRunning = true →
      Step s (.yield event) (s.yield event)
  | consume {s : Recorder} {event : RecordingCaptureEvent} {rest : List RecordingCaptureEvent} :
      s.stream = event :: rest →
      Step s (.consume event) ({ s with stream := rest }.consume event)
  | began {s : Recorder} : s.phase = .preflighting →
      Step s .began { s with phase := .recording, startedAt := s.now }
  | takeBatch {s : Recorder} : s.gapWrites.pending ≠ [] → s.gapWrites.batch = [] →
      Step s .takeBatch { s with
        gapWrites := { s.gapWrites with
          pending := []
          batch := s.gapWrites.pending.mergeSort RecordingGap.before } }
  | persist {s : Recorder} {gap : RecordingGap} {rest : List RecordingGap} :
      s.gapWrites.batch = gap :: rest → Step s (.persist gap) (s.persist gap rest)
  | limit {s : Recorder} : s.phase = .recording → s.startedAt + limitNanoseconds ≤ s.now →
      Step s .limit { s with phase := .stopping false }
  | sourceStopped {s : Recorder} {failed : Bool} : s.phase = .stopping failed →
      Step s .sourceStopped { s with sourceRunning := false }
  | stopped {s : Recorder} : s.phase = .stopping false → s.drained = true →
      Step s .stopped (s.finish "Stopped safely: 120-minute recording limit")
  | failed {s : Recorder} {message : String} : s.phase = .stopping true → s.drained = true →
      Step s .failed (s.finish message)

/-! ## The server's bounds -/

/-- The two checks of a seal command that bound a recording: its elapsed time,
and the length of each track. -/
def Spool.withinServerBounds (spool : Spool) (startedAt endedAt : Nat) : Bool :=
  decide (((endedAt : Int) * 1000 - (startedAt : Int) * 1000 : Int) ≤
      Models.seconds Recordings.maxRecordingSeconds) &&
    decide (spool.trackLength .microphone ≤ Recordings.maxTrackSamples) &&
    decide (spool.trackLength .systemAudio ≤ Recordings.maxTrackSamples)

end TamForge.Capture
