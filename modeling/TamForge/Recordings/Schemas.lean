import TamForge.Models.Base
import TamForge.Models.Json
import TamForge.Models.Sha256
import TamForge.ProofSupport.Checks
import TamForge.ProofSupport.Ranges

/-!
# Track manifests of recordings

The manifest models of `recordings/schemas.py` with their validators.  A field
that is a `Literal` of one value is not kept.
-/

namespace TamForge.Recordings

open Models ProofSupport

/-- A `UUID`; its text is 32 hexadecimal digits in five groups. -/
abbrev Uuid := BitVec 128

def sampleRateHz : Nat := 48000

def maxRecordingSeconds : Nat := 120 * 60

def maxTrackSamples : Nat := sampleRateHz * maxRecordingSeconds

def maxPartSeconds : Nat := 60

def maxPartSamples : Nat := sampleRateHz * maxPartSeconds

def maxParts : Nat := maxRecordingSeconds

def pcmBytesPerSample : Nat := 2

def maxSourceSampleRateHz : Nat := 384000

def maxSourceChannelCount : Nat := 32

def maxPresentationTimeValue : Nat := 9223372036854775807

def maxPresentationTimeTimescale : Nat := 1000000000

inductive TrackKind
  | microphone | systemAudio

def TrackKind.text : TrackKind → String
  | microphone => "microphone"
  | systemAudio => "system_audio"

inductive RecordingState
  | reserved | uploading | sealing | stored | storedWithGaps | needsAttention

/-- `state in {"stored", "stored_with_gaps"}` -/
def RecordingState.isStored : RecordingState → Bool
  | stored | storedWithGaps => true
  | reserved | uploading | sealing | needsAttention => false

inductive GapReason
  | callbackOverflow | formatChange | routeChange | sourceDiscontinuity | missingAudio
  | corruptSpoolRecord

/-- Why a model is refused: a field out of its bounds, or the message of a
validator. -/
inductive ValidationError
  | field (name : String)
  | value (message : String)
deriving DecidableEq

/-! ## Formats -/

structure CanonicalPCMFormat where
  channelCount : Nat

/-- `1 if kind == "microphone" else 2` -/
def expectedChannels : TrackKind → Nat
  | .microphone => 1
  | .systemAudio => 2

/-- `_validate_track_format`; the format has one or two channels. -/
def validateTrackFormat (kind : TrackKind) (format : CanonicalPCMFormat) :
    Except ValidationError Unit :=
  raiseFirst [
    (format.channelCount != 1 && format.channelCount != 2, .field "channel_count"),
    (format.channelCount != expectedChannels kind,
      .value (kind.text ++ " must use " ++ toString (expectedChannels kind) ++
        " canonical channel(s)"))]

/-- `ConversionVersion` -/
def validateConversionVersion (version : String) : Except ValidationError Unit :=
  raiseFirst [(!versionKey version, .field "conversion_version")]

/-! ## Ranges of a track -/

structure RecordingPartDescriptor where
  sequence : Nat
  sampleStart : Nat
  sampleCount : Nat
  byteLength : Nat
  plaintextSha256 : Digest

def validateRange (sampleStart sampleCount maxCount : Nat) (what : String) :
    Except ValidationError Unit :=
  raiseFirst [
    (decide (maxTrackSamples ≤ sampleStart), .field "sample_start"),
    (sampleCount == 0 || decide (maxCount < sampleCount), .field "sample_count"),
    (decide (maxTrackSamples < sampleStart + sampleCount),
      .value (what ++ " range exceeds the recording limit"))]

/-- `byte_length: Annotated[int, Field(gt=0, le=MAX_PART_SAMPLES * 2 * PCM_BYTES_PER_SAMPLE)]` -/
def validateByteLength (byteLength : Nat) : Except ValidationError Unit :=
  raiseFirst [
    (byteLength == 0 || decide (maxPartSamples * 2 * pcmBytesPerSample < byteLength),
      .field "byte_length")]

/-- `sequence: Annotated[int, Field(ge=0, le=MAX_PARTS - 1)]` -/
def validateSequence (sequence : Nat) : Except ValidationError Unit :=
  raiseFirst [(decide (maxParts ≤ sequence), .field "sequence")]

namespace RecordingPartDescriptor

def span (part : RecordingPartDescriptor) : Span := ⟨part.sampleStart, part.sampleCount⟩

def validate (part : RecordingPartDescriptor) : Except ValidationError Unit := do
  validateSequence part.sequence
  validateByteLength part.byteLength
  validateRange part.sampleStart part.sampleCount maxPartSamples "part"

end RecordingPartDescriptor

/-- A declared gap, and a row of `recording_gaps`. -/
structure RecordingGap where
  sampleStart : Nat
  sampleCount : Nat
  reason : GapReason

namespace RecordingGap

def span (gap : RecordingGap) : Span := ⟨gap.sampleStart, gap.sampleCount⟩

def validate (gap : RecordingGap) : Except ValidationError Unit :=
  validateRange gap.sampleStart gap.sampleCount maxTrackSamples "gap"

end RecordingGap

structure RecordingSourceLineageSegment where
  sampleStart : Nat
  sampleCount : Nat
  sourceSampleRateHz : Nat
  sourceChannelCount : Nat
  deviceId : String
  route : String
  presentationTimeStart : Nat
  presentationTimeEnd : Nat
  presentationTimeTimescale : Nat
  conversionVersion : String

namespace RecordingSourceLineageSegment

def span (segment : RecordingSourceLineageSegment) : Span :=
  ⟨segment.sampleStart, segment.sampleCount⟩

/-- `abs(presentation_ticks * SAMPLE_RATE_HZ - sample_count * timescale)` -/
def durationError (segment : RecordingSourceLineageSegment) : Nat :=
  ((((segment.presentationTimeEnd : Int) - segment.presentationTimeStart) * sampleRateHz -
    (segment.sampleCount : Int) * segment.presentationTimeTimescale)).natAbs

def validate (segment : RecordingSourceLineageSegment) : Except ValidationError Unit := do
  raiseFirst [
    (segment.sourceSampleRateHz == 0 ||
      decide (maxSourceSampleRateHz < segment.sourceSampleRateHz), .field "source_sample_rate_hz"),
    (segment.sourceChannelCount == 0 ||
      decide (maxSourceChannelCount < segment.sourceChannelCount), .field "source_channel_count"),
    (segment.deviceId.length == 0 || decide (256 < segment.deviceId.length), .field "device_id"),
    (segment.route.length == 0 || decide (256 < segment.route.length), .field "route"),
    (decide (maxPresentationTimeValue < segment.presentationTimeStart),
      .field "presentation_time_start"),
    (decide (maxPresentationTimeValue < segment.presentationTimeEnd),
      .field "presentation_time_end"),
    (segment.presentationTimeTimescale == 0 ||
      decide (maxPresentationTimeTimescale < segment.presentationTimeTimescale),
      .field "presentation_time_timescale")]
  validateConversionVersion segment.conversionVersion
  validateRange segment.sampleStart segment.sampleCount maxTrackSamples "source lineage"
  raiseFirst [
    (decide (segment.presentationTimeEnd ≤ segment.presentationTimeStart),
      .value "source lineage presentation time must advance"),
    (decide (segment.presentationTimeTimescale < segment.durationError),
      .value "source lineage presentation duration must match canonical sample count")]

end RecordingSourceLineageSegment

/-! ## Manifests -/

structure RecordingTrackManifest where
  trackId : Uuid
  kind : TrackKind
  format : CanonicalPCMFormat
  totalSampleCount : Nat
  parts : List RecordingPartDescriptor
  gaps : List RecordingGap
  sourceLineage : List RecordingSourceLineageSegment
  pcmSha256 : Digest
  timelineSha256 : Digest
  conversionVersion : String

/-- The order of the pairs `(start, end)`. -/
def spanBefore (first second : Span) : Prop :=
  first.start < second.start ∨ (first.start = second.start ∧ first.stop ≤ second.stop)

instance : DecidableRel spanBefore :=
  fun _ _ => inferInstanceAs (Decidable (_ ∨ _))

/-- `sorted` on the pairs `(start, end)`. -/
def sortedSpans (spans : List Span) : List Span :=
  spans.insertionSort spanBefore

/-- The loop of `_coalesce_ranges` with its last range. -/
def coalesceFrom (last : Span) : List Span → List Span
  | [] => [last]
  | next :: rest =>
    if next.start = last.stop then coalesceFrom ⟨last.start, last.count + next.count⟩ rest
    else last :: coalesceFrom next rest

def coalesceRanges : List Span → List Span
  | [] => []
  | first :: rest => coalesceFrom first rest

/-- The loop of `_validate_source_lineage_coverage`: the audio ranges from
`range_index` on, the cursor, and the segments still to read. -/
def coverLineage : List Span → Nat → List Span → Except ValidationError Unit
  | [], _, [] => .ok ()
  | _ :: _, _, [] => .error (.value "source lineage must cover every uploaded audio range")
  | [], _, _ :: _ => .error (.value "source lineage exceeds uploaded audio coverage")
  | range :: ranges, cursor, segment :: segments =>
    if segment.start ≠ cursor then
      .error (.value "source lineage must be ordered and cover uploaded audio exactly once")
    else if range.stop < segment.stop then
      .error (.value "source lineage cannot overlap declared gaps or audio ranges")
    else if segment.stop = range.stop then
      coverLineage ranges ((ranges.head?.map Span.start).getD segment.stop) segments
    else coverLineage (range :: ranges) segment.stop segments

def validateSourceLineageCoverage (parts : List RecordingPartDescriptor)
    (sourceLineage : List RecordingSourceLineageSegment) : Except ValidationError Unit :=
  match coalesceRanges (sortedSpans (parts.map RecordingPartDescriptor.span)) with
  | [] => raiseFirst [(!sourceLineage.isEmpty,
      .value "source lineage cannot claim a track without uploaded audio")]
  | first :: rest => do
      raiseFirst [(sourceLineage.isEmpty,
        .value "source lineage must cover every uploaded audio range")]
      coverLineage (first :: rest) first.start
        (sourceLineage.map RecordingSourceLineageSegment.span)

namespace RecordingTrackManifest

/-- `expected_bytes` of a part -/
def expectedBytes (track : RecordingTrackManifest) (part : RecordingPartDescriptor) : Nat :=
  part.sampleCount * track.format.channelCount * pcmBytesPerSample

/-- The parts and the gaps, in the order of the timeline. -/
def segments (track : RecordingTrackManifest) : List Span :=
  sortedSpans (track.parts.map RecordingPartDescriptor.span ++ track.gaps.map RecordingGap.span)

def validateTimeline (track : RecordingTrackManifest) : Except ValidationError Unit :=
  match Span.sweep 0 track.segments with
  | none => .error (.value "parts and explicit gaps must cover the timeline exactly once")
  | some cursor => raiseFirst [(cursor != track.totalSampleCount,
      .value "parts and explicit gaps must cover the complete track")]

def validateTrack (track : RecordingTrackManifest) : Except ValidationError Unit := do
  validateTrackFormat track.kind track.format
  raiseFirst [
    (track.parts.map RecordingPartDescriptor.sequence != List.range track.parts.length,
      .value "part sequences must be contiguous and ordered from zero"),
    ((track.parts.zip track.parts.tail).any fun pair =>
        decide (pair.2.sampleStart < pair.1.sampleStart + pair.1.sampleCount),
      .value "part ranges must be chronological in sequence order"),
    (track.parts.any fun part => part.byteLength != track.expectedBytes part,
      .value "part byte length does not match canonical PCM range")]
  track.validateTimeline
  validateSourceLineageCoverage track.parts track.sourceLineage
  raiseFirst [
    (track.sourceLineage.any fun segment => segment.conversionVersion != track.conversionVersion,
      .value "source lineage conversion version must match the track conversion version")]

def validate (track : RecordingTrackManifest) : Except ValidationError Unit := do
  raiseFirst [
    (track.totalSampleCount == 0 || decide (maxTrackSamples < track.totalSampleCount),
      .field "total_sample_count"),
    (decide (maxParts < track.parts.length), .field "parts"),
    (decide (maxParts < track.gaps.length), .field "gaps"),
    (decide (maxParts < track.sourceLineage.length), .field "source_lineage")]
  track.parts.forM RecordingPartDescriptor.validate
  track.gaps.forM RecordingGap.validate
  track.sourceLineage.forM RecordingSourceLineageSegment.validate
  validateConversionVersion track.conversionVersion
  track.validateTrack

end RecordingTrackManifest

/-! ## Canonical bytes

The canonical JSON bytes of `recordings/contracts.py`, which other services hash too. -/

/-- The last `width` hexadecimal digits of a number. -/
def hexText (width n : Nat) : List Char :=
  (List.range width).map fun i => Json.hexDigit (n / 16 ^ (width - 1 - i))

/-- `digest.hex()` -/
def hexdigest (digest : Digest) : String :=
  String.ofList (hexText 64 digest.toNat)

def jsonNat (n : Nat) : Json := .number (toString n)

def jsonOption : Option Nat → Json
  | none => .null
  | some n => jsonNat n

def asciiBytes (text : List Char) : Bytes :=
  text.map fun c => UInt8.ofNat c.toNat

/-- `canonical_json_bytes`: the keys in order, no spaces, everything outside ASCII
escaped. -/
def canonicalJsonBytes (value : Json) : Bytes :=
  asciiBytes (Json.dumps value.canonical)

end TamForge.Recordings
