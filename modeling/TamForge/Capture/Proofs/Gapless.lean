import Mathlib.Algebra.Order.Field.Rat
import Mathlib.Tactic.Linarith
import Mathlib.Tactic.NormNum
import TamForge.Capture.Proofs.Records

/-!
# A gapless stream on the timeline

A stream whose chunks follow one another without a gap is stamped in
nanoseconds and placed in samples, and both conversions round toward zero.  The
second one makes up for the first exactly when no stamp loses more than the
first stamp of the stream does.
-/

namespace TamForge.Capture

open ProofSupport

/-! ## Two conversions -/

section Conversions

variable {time : Rat} {samples : Nat}

def stamp (time : Rat) (samples : Nat) : Int :=
  convertedNanoseconds (time + samples / canonicalSampleRate)

def stampLoss (time : Rat) (samples : Nat) : Rat :=
  (time + samples / canonicalSampleRate) * 1000000000 - stamp time samples

theorem abs_convertedNanoseconds (time : Rat) :
    -1 < time * 1000000000 - convertedNanoseconds time ∧
      time * 1000000000 - convertedNanoseconds time < 1 := by
  unfold convertedNanoseconds
  split
  · have hlow := Int.floor_le (time * 1000000000)
    have hhigh := Int.lt_floor_add_one (time * 1000000000)
    constructor <;> linarith
  · have hlow := Int.le_ceil (time * 1000000000)
    have hhigh := Int.ceil_lt_add_one (time * 1000000000)
    constructor <;> linarith

theorem stamp_sub (time : Rat) (samples : Nat) :
    (((stamp time samples - stamp time 0 : Int)) : Rat) * 48000 =
      samples * 1000000000 - (stampLoss time samples - stampLoss time 0) * 48000 := by
  simp only [stampLoss, canonicalSampleRate]
  push_cast
  ring

/-- The placed sample reaches the exact one when the stamp loses no more than
the origin. -/
theorem le_stamp_sub_iff :
    (samples : Int) * 1000000000 ≤ (stamp time samples - stamp time 0) * 48000 ↔
      stampLoss time samples ≤ stampLoss time 0 := by
  have hsub := stamp_sub time samples
  constructor
  · intro h
    have hcast : ((samples : Int) : Rat) * 1000000000 ≤
        ((stamp time samples - stamp time 0 : Int) : Rat) * 48000 := by
      exact_mod_cast h
    rw [hsub] at hcast
    push_cast at hcast
    linarith
  · intro h
    have hcast : ((samples : Int) : Rat) * 1000000000 ≤
        ((stamp time samples - stamp time 0 : Int) : Rat) * 48000 := by
      rw [hsub]
      push_cast
      linarith
    exact_mod_cast hcast

theorem stamp_sub_lt :
    (stamp time samples - stamp time 0) * 48000 < ((samples : Int) + 1) * 1000000000 := by
  have hsub := stamp_sub time samples
  have hstart := abs_convertedNanoseconds (time + samples / canonicalSampleRate)
  have horig := abs_convertedNanoseconds (time + (0 : Nat) / canonicalSampleRate)
  have hcast : ((stamp time samples - stamp time 0 : Int) : Rat) * 48000 <
      (((samples : Int) : Rat) + 1) * 1000000000 := by
    rw [hsub]
    simp only [stampLoss, stamp]
    push_cast
    push_cast at horig
    linarith [hstart.1, horig.2]
  exact_mod_cast hcast

theorem stampLoss_le_iff_of_whole {origin : Nat} (h : time = origin / 1000000000) :
    stampLoss time samples ≤ stampLoss time 0 ↔ 3 ∣ samples := by
  have hstamp : ∀ count : Nat, stamp time count = origin + (count : Int) * 62500 / 3 := by
    intro count
    have hpos : 0 ≤ time + count / canonicalSampleRate := by
      rw [h]
      positivity
    have hexact : (time + count / canonicalSampleRate) * 1000000000 =
        (((origin * 3 + count * 62500 : Int)) : Rat) / (3 : Nat) := by
      rw [h, canonicalSampleRate]
      push_cast
      ring
    rw [stamp, convertedNanoseconds, if_pos hpos, hexact, Rat.floor_intCast_div_natCast]
    omega
  rw [← le_stamp_sub_iff, hstamp, hstamp]
  push_cast
  omega

end Conversions

section Chunk

variable {timeline : RecordingTimelineAssembler} {chunk : RecordingPCMChunk} {origin : Int}
  {presentation : Int} {start : Nat}

theorem canonicalSampleStart_eq_iff (horig : timeline.originNanoseconds = some origin) :
    timeline.canonicalSampleStart presentation = .ok start ↔
      fitsInt64 ((presentation - origin) * 48000) = true ∧
        (start : Int) * 1000000000 ≤ (presentation - origin) * 48000 ∧
        (presentation - origin) * 48000 < ((start : Int) + 1) * 1000000000 := by
  simp only [RecordingTimelineAssembler.canonicalSampleStart, horig, bind_ok_iff,
    canonicalSampleRate]
  constructor
  · rintro ⟨_, hgrd, hstart⟩
    rw [raiseFirst_eq_ok] at hgrd
    simp only [List.forall_mem_cons, Bool.not_eq_false', decide_eq_false_iff_not, not_lt] at hgrd
    obtain ⟨-, hdelta, hscal, -⟩ := hgrd
    cases hstart
    push_cast at hscal ⊢
    refine ⟨hscal, ?_, ?_⟩ <;> omega
  · rintro ⟨hscal, hlow, hhigh⟩
    have hbd := fitsInt64_iff.mp hscal
    refine ⟨(), raiseFirst_eq_ok.mpr ?_, ?_⟩
    · simp only [List.forall_mem_cons, Bool.not_eq_false', decide_eq_false_iff_not, not_lt]
      push_cast
      refine ⟨?_, by omega, hscal, by simp⟩
      rw [fitsInt64_iff]
      simp only [int64Min, int64Max] at hbd ⊢
      omega
    · simp only [pure, Except.pure, Except.ok.injEq]
      push_cast
      omega

theorem accept_fst : (timeline.accept chunk).1 =
    (timeline.anchored chunk.presentationNanoseconds).place chunk := by
  unfold RecordingTimelineAssembler.accept
  dsimp only
  cases (timeline.anchored chunk.presentationNanoseconds).place chunk <;> rfl

theorem accept_exact_iff (hsound : Sound chunk) (hend : timeline.trackEnds chunk.track = start) :
    (timeline.accept chunk).1 = .ok ⟨{ chunk with sampleStart := start }, none⟩ ↔
      (timeline.anchored chunk.presentationNanoseconds).canonicalSampleStart
          chunk.presentationNanoseconds = .ok start ∧
        fitsInt64 ((start : Int) + chunk.sampleCount) = true := by
  have hval : ({ chunk with sampleStart := start } : RecordingPCMChunk).validated = .ok () :=
    validated_iff.mpr ⟨hsound.count_pos, hsound.payload_length⟩
  have hanchored : (timeline.anchored chunk.presentationNanoseconds).trackEnds chunk.track =
      start := hend
  rw [accept_fst]
  simp only [RecordingTimelineAssembler.place, bind_ok_iff, hanchored]
  constructor
  · rintro ⟨sampleStart, hstart, _, -, _, -, _, hfits, hres⟩
    have hf : sampleStart = start :=
      congrArg (fun accepted => accepted.chunk.sampleStart) (Except.ok.inj hres)
    have hin := raiseFirst_eq_ok.mp hfits _ (List.mem_cons_self ..)
    refine ⟨hf ▸ hstart, ?_⟩
    rw [← hf]
    simpa [RecordingPCMChunk.sampleEnd] using hin
  · rintro ⟨hstart, hfits⟩
    refine ⟨start, hstart, (), raiseFirst_eq_ok.mpr (by simp), (), hval, (),
      raiseFirst_eq_ok.mpr ?_, by simp [pure, Except.pure]⟩
    simpa [RecordingPCMChunk.sampleEnd] using hfits

theorem accept_snd (hacc : (timeline.accept chunk).1 =
    .ok ⟨{ chunk with sampleStart := start }, none⟩) :
    (timeline.accept chunk).2.originNanoseconds =
        some (timeline.originNanoseconds.getD chunk.presentationNanoseconds) ∧
      (timeline.accept chunk).2.trackEnds chunk.track = start + chunk.sampleCount := by
  rw [accept_fst] at hacc
  unfold RecordingTimelineAssembler.accept
  simp only [hacc, Function.update_self]
  exact ⟨rfl, rfl⟩

theorem accept_anchored : (timeline.anchored chunk.presentationNanoseconds).accept chunk =
    timeline.accept chunk := by
  have hsame : (timeline.anchored chunk.presentationNanoseconds).anchored
      chunk.presentationNanoseconds = timeline.anchored chunk.presentationNanoseconds := by
    simp [RecordingTimelineAssembler.anchored]
  unfold RecordingTimelineAssembler.accept
  rw [hsame]

end Chunk

section Stream

variable {timeline : RecordingTimelineAssembler} {track : RecordingTrackKind} {time : Rat}
  {start : Nat} {chunks : List RecordingPCMChunk}

/-- The chunks of a track that follow one another from so many samples after
`time` on, each stamped with its exact time. -/
def Gapless (track : RecordingTrackKind) (time : Rat) : Nat → List RecordingPCMChunk → Prop
  | _, [] => True
  | start, chunk :: rest =>
    (chunk.track = track ∧ chunk.presentationNanoseconds = stamp time start ∧ Sound chunk) ∧
      Gapless track time (start + chunk.sampleCount) rest

/-- The timeline accepts every chunk, places it at the end of the one before, and
reports no gap. -/
def StaysGapless : RecordingTimelineAssembler → Nat → List RecordingPCMChunk → Prop
  | _, _, [] => True
  | timeline, start, chunk :: rest =>
    (timeline.accept chunk).1 = .ok ⟨{ chunk with sampleStart := start }, none⟩ ∧
      StaysGapless (timeline.accept chunk).2 (start + chunk.sampleCount) rest

/-- No stamp loses more than the first one of the stream, and the offsets stay
within an `Int64`. -/
def LosesNoMore (time : Rat) : Nat → List RecordingPCMChunk → Prop
  | _, [] => True
  | start, chunk :: rest =>
    (stampLoss time start ≤ stampLoss time 0 ∧
      fitsInt64 ((stamp time start - stamp time 0) * 48000) = true ∧
      fitsInt64 ((start : Int) + chunk.sampleCount) = true) ∧
      LosesNoMore time (start + chunk.sampleCount) rest

theorem staysGapless_iff (horig : timeline.originNanoseconds = some (stamp time 0))
    (hend : timeline.trackEnds track = start) (hchunks : Gapless track time start chunks) :
    StaysGapless timeline start chunks ↔ LosesNoMore time start chunks := by
  induction chunks generalizing timeline start with
  | nil => exact Iff.rfl
  | cons chunk rest ih =>
    obtain ⟨⟨rfl, hstamp, hsound⟩, hrest⟩ := hchunks
    have hanchored : (timeline.anchored chunk.presentationNanoseconds).originNanoseconds =
        some (stamp time 0) := by
      simp [RecordingTimelineAssembler.anchored, horig]
    have hstart : (timeline.anchored chunk.presentationNanoseconds).canonicalSampleStart
        chunk.presentationNanoseconds = .ok start ↔
          fitsInt64 ((stamp time start - stamp time 0) * 48000) = true ∧
            stampLoss time start ≤ stampLoss time 0 := by
      rw [canonicalSampleStart_eq_iff hanchored, hstamp, le_stamp_sub_iff,
        and_iff_left stamp_sub_lt]
    have hhead : (timeline.accept chunk).1 =
        .ok ⟨{ chunk with sampleStart := start }, none⟩ ↔
          stampLoss time start ≤ stampLoss time 0 ∧
            fitsInt64 ((stamp time start - stamp time 0) * 48000) = true ∧
            fitsInt64 ((start : Int) + chunk.sampleCount) = true := by
      rw [accept_exact_iff hsound hend, hstart, and_comm (b := stampLoss time start ≤ _),
        and_assoc]
    rw [StaysGapless, LosesNoMore, ← hhead]
    apply and_congr_right
    intro hfst
    obtain ⟨hnext, hcursor⟩ := accept_snd hfst
    rw [horig, Option.getD_some] at hnext
    exact ih hnext hcursor hrest

/-- A gapless stream stays gapless on a fresh timeline exactly when no stamp
loses more than the first one and the offsets stay within an `Int64`. -/
theorem gapless_stream_iff (track : RecordingTrackKind) (time : Rat)
    (chunks : List RecordingPCMChunk) (hchunks : Gapless track time 0 chunks) :
    StaysGapless .fresh 0 chunks ↔ LosesNoMore time 0 chunks := by
  cases chunks with
  | nil => exact Iff.rfl
  | cons chunk rest =>
    have hstamp : chunk.presentationNanoseconds = stamp time 0 := hchunks.1.2.1
    have horigin : (RecordingTimelineAssembler.fresh.anchored
        chunk.presentationNanoseconds).originNanoseconds = some (stamp time 0) := by
      simp [RecordingTimelineAssembler.anchored, RecordingTimelineAssembler.fresh, hstamp]
    have hend : (RecordingTimelineAssembler.fresh.anchored
        chunk.presentationNanoseconds).trackEnds track = 0 := rfl
    have hanchored := staysGapless_iff horigin hend hchunks
    rw [← hanchored, StaysGapless, StaysGapless, accept_anchored]

end Stream

/-- A chunk of the microphone that is stamped so many samples after the first
second. -/
def pcmChunk (start count : Nat) : RecordingPCMChunk where
  track := .microphone
  presentationNanoseconds := stamp 1 start
  sampleStart := 0
  sampleCount := count
  format := ⟨1, one_channel⟩
  source := ⟨.finite 48000, 1, "built-in", "built-in", 1, stamp 1 start⟩
  payload := List.replicate (2 * count) 0

theorem gapless_samples (first second : Nat) (hfst : 0 < first) (hsec : 0 < second) :
    Gapless .microphone 1 0 [pcmChunk 0 first, pcmChunk first second] := by
  refine ⟨⟨rfl, rfl, hfst, ?_⟩, ⟨rfl, by simp [pcmChunk], hsec, ?_⟩, trivial⟩ <;>
    simp [pcmChunk, RecordingPCMChunk.bytesPerFrame, bytesPerSample, Nat.mul_comm]

/-- Chunks of 960 samples stay gapless. -/
theorem gapless_stream_sample :
    StaysGapless .fresh 0 [pcmChunk 0 960, pcmChunk 960 960] := by
  apply (gapless_stream_iff .microphone 1 _ (gapless_samples 960 960 (by decide)
    (by decide))).mpr
  refine ⟨⟨le_refl _, by decide +kernel, by decide⟩, ⟨?_, by decide +kernel, by decide⟩, trivial⟩
  have hwhole : (1 : Rat) = (1000000000 : Nat) / 1000000000 := by norm_num
  exact (stampLoss_le_iff_of_whole hwhole).mpr (by decide)

/-- The second chunk of 512 samples is refused as overlapping the first. -/
theorem gapless_stream_overlaps :
    Gapless .microphone 1 0 [pcmChunk 0 512, pcmChunk 512 512] ∧
      ((RecordingTimelineAssembler.fresh.accept (pcmChunk 0 512)).2.accept
        (pcmChunk 512 512)).1 = .error .overlappingRange :=
  ⟨gapless_samples 512 512 (by decide) (by decide), by decide +kernel⟩

end TamForge.Capture
