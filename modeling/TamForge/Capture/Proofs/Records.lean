import TamForge.Capture.Timeline
import TamForge.ProofSupport.Ranges

/-!
# Records of one track

What the timeline and the accumulator do to the samples of a track: a placed
chunk continues the cursor behind its gap, and cutting a chunk into seconds keeps
its samples and its bytes in order.
-/

namespace TamForge.Capture

open ProofSupport ProofSupport.Span

def RecordingPCMChunk.span (chunk : RecordingPCMChunk) : Span :=
  ⟨chunk.sampleStart, chunk.sampleCount⟩

def RecordingGap.span (gap : RecordingGap) : Span :=
  ⟨gap.sampleStart, gap.sampleCount⟩

def spans (chunks : List RecordingPCMChunk) : List Span :=
  chunks.map RecordingPCMChunk.span

def payloads (chunks : List RecordingPCMChunk) : List UInt8 :=
  chunks.flatMap RecordingPCMChunk.payload

@[simp] theorem spans_append (left right : List RecordingPCMChunk) :
    spans (left ++ right) = spans left ++ spans right :=
  List.map_append

@[simp] theorem payloads_append (left right : List RecordingPCMChunk) :
    payloads (left ++ right) = payloads left ++ payloads right :=
  List.flatMap_append

@[simp] theorem spans_nil : spans [] = [] := rfl

@[simp] theorem payloads_nil : payloads [] = [] := rfl

theorem payloads_single (chunk : RecordingPCMChunk) : payloads [chunk] = chunk.payload := by
  simp [payloads]

structure Sound (chunk : RecordingPCMChunk) : Prop where
  count_pos : 0 < chunk.sampleCount
  payload_length : chunk.payload.length = chunk.sampleCount * chunk.bytesPerFrame

theorem validated_iff {chunk : RecordingPCMChunk} : chunk.validated = .ok () ↔ Sound chunk := by
  rw [RecordingPCMChunk.validated, raiseFirst_eq_ok]
  simp only [List.forall_mem_cons, beq_eq_false_iff_ne, bne_eq_false_iff_eq]
  constructor
  · rintro ⟨hcnt, hlen, -⟩
    exact ⟨Nat.pos_of_ne_zero hcnt, hlen⟩
  · rintro ⟨hcnt, hlen⟩
    exact ⟨by omega, hlen, by simp⟩

/-! ## Placing -/

section Placing

variable {timeline : RecordingTimelineAssembler} {chunk : RecordingPCMChunk}
  {accepted : RecordingTimelineAcceptance}

structure Places (timeline : RecordingTimelineAssembler) (chunk : RecordingPCMChunk)
    (accepted : RecordingTimelineAcceptance) : Prop where
  track : accepted.chunk.track = chunk.track
  payload : accepted.chunk.payload = chunk.payload
  sound : Sound accepted.chunk
  fits : fitsInt64 accepted.chunk.sampleEnd = true
  forward : timeline.trackEnds chunk.track ≤ accepted.chunk.sampleStart
  gap_eq : accepted.gap =
    if accepted.chunk.sampleStart = timeline.trackEnds chunk.track then none
    else some ⟨chunk.track, timeline.trackEnds chunk.track,
      accepted.chunk.sampleStart - timeline.trackEnds chunk.track, .sourceDiscontinuity⟩

theorem place_ok (h : timeline.place chunk = .ok accepted) : Places timeline chunk accepted := by
  simp only [RecordingTimelineAssembler.place, bind_ok_iff] at h
  obtain ⟨sampleStart, -, _, hforward, _, hval, _, hfits, hres⟩ := h
  cases hres
  have hle := raiseFirst_eq_ok.mp hforward _ (List.mem_cons_self ..)
  have hin := raiseFirst_eq_ok.mp hfits _ (List.mem_cons_self ..)
  simp only [decide_eq_false_iff_not, not_lt] at hle
  constructor
  · rfl
  · rfl
  · exact validated_iff.mp hval
  · simpa using hin
  · exact hle
  · rfl

variable {later : RecordingTimelineAssembler}

theorem accept_ok (h : timeline.accept chunk = (.ok accepted, later)) :
    Places timeline chunk accepted ∧
      later.trackEnds =
        Function.update timeline.trackEnds chunk.track accepted.chunk.sampleEnd := by
  unfold RecordingTimelineAssembler.accept at h
  dsimp only at h
  split at h
  · cases h
  · rename_i found hplace
    cases h
    have hpl := place_ok hplace
    exact ⟨⟨hpl.track, hpl.payload, hpl.sound, hpl.fits, hpl.forward,
      hpl.gap_eq⟩, rfl⟩

variable {error : CaptureError}

theorem accept_error (h : timeline.accept chunk = (.error error, later)) :
    later.trackEnds = timeline.trackEnds := by
  unfold RecordingTimelineAssembler.accept at h
  dsimp only at h
  split at h <;> cases h
  rfl

theorem boundedSampleCount_ok {start stop count : Nat}
    (h : RecordingTimelineAssembler.boundedSampleCount start stop = .ok count) :
    count = stop - start := by
  simp only [RecordingTimelineAssembler.boundedSampleCount, bind_ok_iff] at h
  obtain ⟨_, -, hres⟩ := h
  cases hres
  rfl

variable {reason : RecordingGapReason}

theorem sweep_dropped {track : RecordingTrackKind} {cursor sourceStart sourceEnd : Nat}
    (hcursor : cursor < sourceEnd) (hle : sourceStart ≤ sourceEnd) :
    sweep cursor
      (((if cursor < sourceStart then
            [RecordingGap.mk track cursor (sourceStart - cursor) .sourceDiscontinuity] else []) ++
          if max cursor sourceStart < sourceEnd then
            [RecordingGap.mk track (max cursor sourceStart) (sourceEnd - max cursor sourceStart)
              reason]
          else []).map RecordingGap.span) = some sourceEnd := by
  have hgap : ∀ {start stop : Nat} {why : RecordingGapReason}, start ≤ stop →
      sweep start [(RecordingGap.mk track start (stop - start) why).span] = some stop := by
    intro start stop why hstop
    exact sweep_single rfl (Nat.add_sub_cancel' hstop)
  by_cases hhole : cursor < sourceStart
  · rw [if_pos hhole, max_eq_right hhole.le, List.map_append]
    by_cases hdrop : sourceStart < sourceEnd
    · rw [if_pos hdrop]
      exact sweep_join (hgap hhole.le) (hgap hle)
    · have hsame : sourceStart = sourceEnd := Nat.le_antisymm hle (not_lt.mp hdrop)
      rw [if_neg hdrop, ← hsame]
      exact hgap hhole.le
  · rw [if_neg hhole, max_eq_left (not_lt.mp hhole), if_pos hcursor]
    exact hgap hcursor.le

variable {interval : RecordingDroppedSourceInterval}

theorem acceptDropped_ok {gaps : List RecordingGap}
    (h : timeline.acceptDropped interval reason = (.ok gaps, later)) :
    ∃ cursor, sweep (timeline.trackEnds interval.track) (gaps.map RecordingGap.span) =
        some cursor ∧ (∀ gap ∈ gaps, gap.track = interval.track) ∧
      (cursor = timeline.trackEnds interval.track → gaps = []) ∧
      later.trackEnds = Function.update timeline.trackEnds interval.track cursor := by
  unfold RecordingTimelineAssembler.acceptDropped at h
  dsimp only at h
  split at h
  · cases h
  rename_i found cursor hplace
  cases h
  refine ⟨cursor, ?_⟩
  simp only [RecordingTimelineAssembler.placeDropped, bind_ok_iff] at hplace
  obtain ⟨sourceStart, -, sourceEnd, -, _, hord, hplace⟩ := hplace
  have hle := raiseFirst_eq_ok.mp hord _ (List.mem_cons_self ..)
  simp only [decide_eq_false_iff_not, not_lt] at hle
  split at hplace
  · cases hplace
    exact ⟨rfl, by simp, fun _ => rfl, rfl⟩
  · rename_i hbehind
    simp only [bind_ok_iff] at hplace
    obtain ⟨missing, hmis, dropped, hdrop, hres⟩ := hplace
    cases hres
    obtain rfl := boundedSampleCount_ok hmis
    obtain rfl := boundedSampleCount_ok hdrop
    have hcursor : timeline.trackEnds interval.track < cursor := not_le.mp hbehind
    refine ⟨sweep_dropped hcursor hle, ?_, fun hsame => absurd hsame (by omega), rfl⟩
    intro gap hgap
    rcases List.mem_append.mp hgap with hgap | hgap <;> split at hgap
    · rw [List.mem_singleton.mp hgap]
    · cases hgap
    · rw [List.mem_singleton.mp hgap]
    · cases hgap

theorem acceptDropped_error (h : timeline.acceptDropped interval reason = (.error error, later)) :
    later.trackEnds = timeline.trackEnds := by
  unfold RecordingTimelineAssembler.acceptDropped at h
  dsimp only at h
  split at h <;> cases h
  rfl

end Placing

/-! ## Cutting -/

section Cutting

variable {chunk part pending : RecordingPCMChunk} {offset count rounds : Nat}

theorem slice_ok (h : chunk.slice offset count = .ok part) :
    part.track = chunk.track ∧ part.sampleStart = chunk.sampleStart + offset ∧
      part.sampleCount = count ∧ part.format = chunk.format ∧
      part.payload = (chunk.payload.drop (offset * chunk.bytesPerFrame)).take
        (count * chunk.bytesPerFrame) ∧
      part.presentationNanoseconds =
        chunk.presentationNanoseconds + (offset * 1000000000 : Int) / canonicalSampleRate ∧
      part.source.presentationNanoseconds =
        chunk.source.presentationNanoseconds + (offset * 1000000000 : Int) / canonicalSampleRate := by
  simp only [RecordingPCMChunk.slice, bind_ok_iff] at h
  obtain ⟨_, -, hres⟩ := h
  cases hres
  exact ⟨rfl, rfl, rfl, rfl, rfl, rfl, rfl⟩

structure Cut (chunk : RecordingPCMChunk) (emitted : List RecordingPCMChunk)
    (left : Option RecordingPCMChunk) : Prop where
  emitted_track : ∀ part ∈ emitted, part.track = chunk.track
  emitted_count : ∀ part ∈ emitted, part.sampleCount = canonicalSampleRate
  left_track : ∀ part ∈ left, part.track = chunk.track
  left_count : ∀ part ∈ left, part.sampleCount < canonicalSampleRate
  left_sound : ∀ part ∈ left, Sound part
  swept : sweep chunk.sampleStart (spans (emitted ++ left.toList)) = some chunk.sampleEnd
  payload : payloads (emitted ++ left.toList) = chunk.payload

theorem cut_whole (hsound : Sound chunk) (hcnt : chunk.sampleCount < canonicalSampleRate) :
    Cut chunk [] (some chunk) := by
  have hself : ∀ part ∈ some chunk, part = chunk := fun part hpart => (Option.some.inj hpart).symm
  constructor
  · simp
  · simp
  · intro part hpart
    rw [hself part hpart]
  · intro part hpart
    rw [hself part hpart]
    exact hcnt
  · intro part hpart
    rw [hself part hpart]
    exact hsound
  · exact sweep_single rfl rfl
  · exact payloads_single chunk

theorem drain_ok (hsound : Sound chunk) (hrounds : chunk.sampleCount / canonicalSampleRate ≤ rounds)
    {emitted : List RecordingPCMChunk} {left : Option RecordingPCMChunk}
    (h : chunk.drain rounds = (.ok emitted, left)) : Cut chunk emitted left := by
  induction rounds generalizing chunk emitted left with
  | zero =>
    cases h
    refine cut_whole hsound ?_
    unfold canonicalSampleRate at hrounds ⊢
    omega
  | succ rounds ih =>
    rw [RecordingPCMChunk.drain] at h
    split at h
    · rename_i hcnt
      cases h
      exact cut_whole hsound hcnt
    rename_i hlong
    split at h
    · cases h
    rename_i first hfst
    obtain ⟨hfstTrack, hfstStart, hfstCnt, -, hfstPay, -, -⟩ := slice_ok hfst
    rw [Nat.zero_mul, List.drop_zero] at hfstPay
    have hfstSpan : first.span = ⟨chunk.sampleStart, canonicalSampleRate⟩ := by
      rw [RecordingPCMChunk.span, hfstStart, hfstCnt, Nat.add_zero]
    split at h
    · rename_i hexact
      cases h
      constructor
      · intro part hpart
        rw [List.mem_singleton.mp hpart, hfstTrack]
      · intro part hpart
        rw [List.mem_singleton.mp hpart, hfstCnt]
      · simp
      · simp
      · simp
      · simp only [spans, Option.toList_none, List.append_nil, List.map_cons, List.map_nil,
          hfstSpan, sweep, if_true, Span.stop, RecordingPCMChunk.sampleEnd, hexact]
      · rw [Option.toList_none, List.append_nil, payloads_single, hfstPay,
          List.take_of_length_le]
        rw [hsound.payload_length, hexact]
    · rename_i hmore
      split at h
      · cases h
      rename_i rest hrest
      obtain ⟨hrestTrack, hrestStart, hrestCnt, hrestFormat, hrestPay, -, -⟩ :=
        slice_ok hrest
      have hrestFrame : rest.bytesPerFrame = chunk.bytesPerFrame := by
        rw [RecordingPCMChunk.bytesPerFrame, RecordingPCMChunk.bytesPerFrame, hrestFormat]
      have hrestAll : rest.payload =
          chunk.payload.drop (canonicalSampleRate * chunk.bytesPerFrame) := by
        rw [hrestPay, List.take_of_length_le]
        rw [List.length_drop, hsound.payload_length, Nat.sub_mul]
      have hrestSound : Sound rest := by
        constructor
        · omega
        · rw [hrestAll, List.length_drop, hsound.payload_length, hrestCnt, hrestFrame,
            Nat.sub_mul]
      have hrestRounds : rest.sampleCount / canonicalSampleRate ≤ rounds := by
        rw [hrestCnt]
        unfold canonicalSampleRate at hrounds hlong ⊢
        omega
      cases hdrain : rest.drain rounds with
      | mk result pending =>
        rw [hdrain] at h
        cases result with
        | error error => cases h
        | ok more =>
          cases h
          have hcut := ih hrestSound hrestRounds hdrain
          constructor
          · intro part hpart
            rcases List.mem_cons.mp hpart with rfl | hpart
            · exact hfstTrack
            · rw [hcut.emitted_track part hpart, hrestTrack]
          · intro part hpart
            rcases List.mem_cons.mp hpart with rfl | hpart
            · exact hfstCnt
            · exact hcut.emitted_count part hpart
          · intro part hpart
            rw [hcut.left_track part hpart, hrestTrack]
          · exact hcut.left_count
          · exact hcut.left_sound
          · have hswept := hcut.swept
            rw [hrestStart] at hswept
            have hend : rest.sampleEnd = chunk.sampleEnd := by
              rw [RecordingPCMChunk.sampleEnd, RecordingPCMChunk.sampleEnd, hrestStart,
                hrestCnt]
              omega
            rw [List.cons_append, spans, List.map_cons, hfstSpan, sweep, if_pos rfl,
              ← hend]
            exact hswept
          · have hpay := hcut.payload
            rw [List.cons_append, payloads, List.flatMap_cons, hfstPay]
            rw [payloads] at hpay
            rw [hpay, hrestAll, List.take_append_drop]

/-- The last second of the chunk has timestamps that are `Int64`s. -/
def Stamped (chunk : RecordingPCMChunk) : Prop :=
  let lastSecond : Int := ((chunk.sampleCount - 1) / canonicalSampleRate : Nat)
  fitsInt64 chunk.presentationNanoseconds = true ∧
    fitsInt64 (chunk.presentationNanoseconds + lastSecond * 1000000000) = true ∧
    fitsInt64 chunk.source.presentationNanoseconds = true ∧
    fitsInt64 (chunk.source.presentationNanoseconds + lastSecond * 1000000000) = true

instance (chunk : RecordingPCMChunk) : Decidable (Stamped chunk) :=
  inferInstanceAs (Decidable (_ ∧ _ ∧ _ ∧ _))

theorem fitsInt64_iff {n : Int} : fitsInt64 n = true ↔ int64Min ≤ n ∧ n ≤ int64Max := by
  rw [fitsInt64, Bool.and_eq_true, decide_eq_true_eq, decide_eq_true_eq]

theorem slice_exists (hstart : fitsInt64 (chunk.sampleStart + offset) = true)
    (hoff : offset ≤ canonicalSampleRate)
    (hpresentation : fitsInt64 (chunk.presentationNanoseconds +
      (offset * 1000000000 : Int) / canonicalSampleRate) = true)
    (hsrc : fitsInt64 (chunk.source.presentationNanoseconds +
      (offset * 1000000000 : Int) / canonicalSampleRate) = true) :
    ∃ part, chunk.slice offset count = .ok part := by
  have hscal : fitsInt64 (offset * 1000000000 : Int) = true := by
    rw [fitsInt64_iff]
    unfold int64Min int64Max
    unfold canonicalSampleRate at hoff
    omega
  have hgrd : raiseFirst [
      (!fitsInt64 (offset * 1000000000 : Int), CaptureError.arithmeticOverflow),
      (!fitsInt64 (chunk.presentationNanoseconds +
          (offset * 1000000000 : Int) / canonicalSampleRate) ||
        !fitsInt64 (chunk.source.presentationNanoseconds +
          (offset * 1000000000 : Int) / canonicalSampleRate) ||
        !fitsInt64 (chunk.sampleStart + offset), .arithmeticOverflow)] = .ok () := by
    rw [hscal, hpresentation, hsrc, hstart]
    rfl
  simp only [RecordingPCMChunk.slice, bind_ok_iff]
  exact ⟨_, (), hgrd, rfl⟩

theorem drain_exists (hcnt : 0 < chunk.sampleCount) (hstamp : Stamped chunk)
    (hfits : fitsInt64 chunk.sampleEnd = true) :
    ∃ emitted left, chunk.drain rounds = (.ok emitted, left) := by
  induction rounds generalizing chunk with
  | zero => exact ⟨[], some chunk, rfl⟩
  | succ rounds ih =>
    rw [RecordingPCMChunk.drain]
    split
    · exact ⟨[], some chunk, rfl⟩
    rename_i hlong
    obtain ⟨hpresentation, hlast, hsrc, hsrcLast⟩ := hstamp
    have hend := fitsInt64_iff.mp hfits
    rw [RecordingPCMChunk.sampleEnd] at hend
    rw [fitsInt64_iff] at hlast hsrcLast
    have hstamps := fitsInt64_iff.mp hpresentation
    have hsrcStamps := fitsInt64_iff.mp hsrc
    unfold canonicalSampleRate at hlong hlast hsrcLast
    have hstart : fitsInt64 ((chunk.sampleStart : Int) + (0 : Nat)) = true := by
      rw [fitsInt64_iff]
      unfold int64Min int64Max at *
      omega
    obtain ⟨first, hfst⟩ : ∃ part, chunk.slice 0 canonicalSampleRate = .ok part :=
      slice_exists hstart (Nat.zero_le _) (by simpa using hpresentation) (by simpa using hsrc)
    rw [hfst]
    dsimp only
    split
    · exact ⟨[first], none, rfl⟩
    rename_i hmore
    unfold canonicalSampleRate at hmore
    have hsec : ((canonicalSampleRate : Nat) * 1000000000 : Int) / (canonicalSampleRate : Nat) =
        1000000000 := by
      decide
    have hnextStart : fitsInt64 ((chunk.sampleStart : Int) + canonicalSampleRate) = true := by
      rw [fitsInt64_iff]
      unfold int64Min int64Max canonicalSampleRate at *
      omega
    have hnextStamp : fitsInt64 (chunk.presentationNanoseconds + 1000000000) = true := by
      rw [fitsInt64_iff]
      omega
    have hnextSrc : fitsInt64 (chunk.source.presentationNanoseconds + 1000000000) = true := by
      rw [fitsInt64_iff]
      omega
    obtain ⟨rest, hrest⟩ : ∃ part, chunk.slice canonicalSampleRate
        (chunk.sampleCount - canonicalSampleRate) = .ok part :=
      slice_exists hnextStart le_rfl (by rw [hsec]; exact hnextStamp)
        (by rw [hsec]; exact hnextSrc)
    rw [hrest]
    dsimp only
    obtain ⟨-, hrestStart, hrestCnt, -, -, hrestStamp, hrestSrc⟩ := slice_ok hrest
    rw [hsec] at hrestStamp hrestSrc
    have hrestStamped : Stamped rest := by
      unfold Stamped
      rw [hrestStamp, hrestSrc, hrestCnt]
      unfold canonicalSampleRate
      refine ⟨hnextStamp, ?_, hnextSrc, ?_⟩
      · rw [fitsInt64_iff]
        omega
      · rw [fitsInt64_iff]
        omega
    have hrestEnd : rest.sampleEnd = chunk.sampleEnd := by
      rw [RecordingPCMChunk.sampleEnd, RecordingPCMChunk.sampleEnd, hrestStart, hrestCnt]
      unfold canonicalSampleRate
      omega
    obtain ⟨emitted, left, hdrain⟩ := ih (by unfold canonicalSampleRate at hrestCnt; omega)
      hrestStamped (by rw [hrestEnd]; exact hfits)
    exact ⟨first :: emitted, left, by rw [hdrain]; rfl⟩

end Cutting

end TamForge.Capture
