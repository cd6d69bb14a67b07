import TamForge.ProofSupport.Checks

/-!
# Recorded audio on the capturing side

`RecordingModels.swift`: chunks of canonical PCM audio with their source, gaps,
dropped source intervals and the events of a capture.  Fixed-width arithmetic is
that of the integers with the overflow checks that the source makes.
-/

namespace TamForge.Capture

open ProofSupport

def int64Min : Int := -2 ^ 63

def int64Max : Int := 2 ^ 63 - 1

/-- The value is an `Int64`. -/
def fitsInt64 (n : Int) : Bool :=
  decide (int64Min ≤ n) && decide (n ≤ int64Max)

/-- What a capture call throws.  `trap` is a runtime trap of unchecked
arithmetic. -/
inductive CaptureError
  | invalidSampleRange | invalidPayloadLength
  | timestampBeforeOrigin | overlappingRange | invalidDroppedSourceRange | arithmeticOverflow
  | trap
deriving DecidableEq

inductive RecordingTrackKind
  | microphone | systemAudio
deriving DecidableEq

/-- A `Double` of the source, of which only equality is used. -/
inductive Double
  | finite (value : Rat)
  | infinite (negative : Bool)
  | nan
deriving DecidableEq

/-- `==` of `Double`: a NaN equals nothing. -/
def Double.equals : Double → Double → Bool
  | finite value, finite other => decide (value = other)
  | infinite negative, infinite other => negative == other
  | _, _ => false

def canonicalSampleRate : Nat := 48000

def bytesPerSample : Nat := 2

/-- The encoding, the rate and the interleaving are the same in every format. -/
structure RecordingPCMFormat where
  channelCount : Nat
  canonical : channelCount = 1 ∨ channelCount = 2
deriving DecidableEq

theorem one_channel : 1 = 1 ∨ 1 = 2 := Or.inl rfl

structure RecordingSourceLineage where
  sampleRate : Double
  channelCount : Int
  deviceID : String
  initialRoute : String
  conversionVersion : Int
  presentationNanoseconds : Int
deriving DecidableEq

structure RecordingPCMChunk where
  track : RecordingTrackKind
  presentationNanoseconds : Int
  sampleStart : Nat
  sampleCount : Nat
  format : RecordingPCMFormat
  source : RecordingSourceLineage
  payload : List UInt8
deriving DecidableEq

namespace RecordingPCMChunk

def bytesPerFrame (chunk : RecordingPCMChunk) : Nat :=
  chunk.format.channelCount * bytesPerSample

def sampleEnd (chunk : RecordingPCMChunk) : Nat :=
  chunk.sampleStart + chunk.sampleCount

def validated (chunk : RecordingPCMChunk) : Except CaptureError Unit :=
  raiseFirst [
    (chunk.sampleCount == 0, .invalidSampleRange),
    (chunk.payload.length != chunk.sampleCount * chunk.bytesPerFrame, .invalidPayloadLength)]

end RecordingPCMChunk

inductive RecordingGapReason
  | callbackOverflow | formatChange | routeChange | sourceDiscontinuity | missingAudio
  | corruptSpoolRecord
deriving DecidableEq

structure RecordingGap where
  track : RecordingTrackKind
  sampleStart : Nat
  sampleCount : Nat
  reason : RecordingGapReason
deriving DecidableEq

structure RecordingDroppedSourceRange where
  track : RecordingTrackKind
  presentationNanoseconds : Int
  sourceSampleCount : Int
  sourceSampleRate : Int
deriving DecidableEq

structure RecordingDroppedSourceInterval where
  track : RecordingTrackKind
  startPresentationNanoseconds : Int
  endPresentationNanoseconds : Int
deriving DecidableEq

/-- `RecordingDroppedSourceInterval.init?(range:)` -/
def RecordingDroppedSourceRange.interval? (range : RecordingDroppedSourceRange) :
    Option RecordingDroppedSourceInterval :=
  let scaledDuration := range.sourceSampleCount * 1000000000
  let stop := range.presentationNanoseconds + scaledDuration / range.sourceSampleRate
  if range.sourceSampleCount ≤ 0 ∨ range.sourceSampleRate ≤ 0 then none
  else if !fitsInt64 scaledDuration || !fitsInt64 stop then none
  else if stop < range.presentationNanoseconds then none
  else some ⟨range.track, range.presentationNanoseconds, stop⟩

inductive RecordingCaptureFailure
  | permissionLost | sourceUnavailable | formatUnsupported | callbackOverflow | conversionFailed
  | streamStopped | silentInput | requiredTracksMissing
deriving DecidableEq

inductive RecordingCaptureEvent
  | chunk (chunk : RecordingPCMChunk)
  | gap (gap : RecordingGap)
  | level (track : RecordingTrackKind) (normalized : Double)
  | failure (failure : RecordingCaptureFailure)
deriving DecidableEq

end TamForge.Capture
