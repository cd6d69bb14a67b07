import TamForge.Capture.Proofs.Records
import TamForge.ProofSupport.Run

/-!
# No audio is lost silently

Runs of a capture pipeline with the events that its calls delivered and the
chunks that its timeline accepted.  The events of a track, followed by what its
accumulator holds back, always lead to its cursor, as long as no call throws
after it advanced a cursor or took a chunk out of the accumulator.
-/

namespace TamForge.Capture

open ProofSupport ProofSupport.Span

/-! ## What was delivered on a track -/

def chunkOn (track : RecordingTrackKind) : RecordingCaptureEvent → Option RecordingPCMChunk
  | .chunk audio => if audio.track = track then some audio else none
  | _ => none

def spanOn (track : RecordingTrackKind) : RecordingCaptureEvent → Option Span
  | .chunk audio => if audio.track = track then some audio.span else none
  | .gap gap => if gap.track = track then some gap.span else none
  | _ => none

def spansOn (track : RecordingTrackKind) (events : List RecordingCaptureEvent) : List Span :=
  events.filterMap (spanOn track)

def payloadOn (track : RecordingTrackKind) (events : List RecordingCaptureEvent) : List UInt8 :=
  payloads (events.filterMap (chunkOn track))

def acceptedPayload (track : RecordingTrackKind) (accepted : List RecordingPCMChunk) :
    List UInt8 :=
  payloads (accepted.filter fun chunk => chunk.track = track)

section Delivered

variable {track other : RecordingTrackKind} {chunks : List RecordingPCMChunk}
  {gaps : List RecordingGap}

@[simp] theorem spansOn_append (left right : List RecordingCaptureEvent) :
    spansOn track (left ++ right) = spansOn track left ++ spansOn track right :=
  List.filterMap_append

@[simp] theorem payloadOn_append (left right : List RecordingCaptureEvent) :
    payloadOn track (left ++ right) = payloadOn track left ++ payloadOn track right := by
  rw [payloadOn, List.filterMap_append, payloads_append]
  rfl

@[simp] theorem acceptedPayload_append (left right : List RecordingPCMChunk) :
    acceptedPayload track (left ++ right) =
      acceptedPayload track left ++ acceptedPayload track right := by
  rw [acceptedPayload, List.filter_append, payloads_append]
  rfl

theorem spansOn_chunks (h : ∀ chunk ∈ chunks, chunk.track = track) :
    spansOn track (chunks.map .chunk) = spans chunks := by
  rw [spansOn, List.filterMap_map, spans, ← List.filterMap_eq_map]
  exact List.filterMap_congr fun chunk hchunk => if_pos (h chunk hchunk)

theorem payloadOn_chunks (h : ∀ chunk ∈ chunks, chunk.track = track) :
    payloadOn track (chunks.map .chunk) = payloads chunks := by
  rw [payloadOn, List.filterMap_map]
  congr 1
  exact (List.filterMap_congr fun chunk hchunk => if_pos (h chunk hchunk)).trans List.filterMap_some

theorem chunks_elsewhere (h : ∀ chunk ∈ chunks, chunk.track = track) (hne : other ≠ track) :
    spansOn other (chunks.map .chunk) = [] ∧ payloadOn other (chunks.map .chunk) = [] := by
  have hnone : ∀ event ∈ chunks.map RecordingCaptureEvent.chunk,
      spanOn other event = none ∧ chunkOn other event = none := by
    intro event hev
    obtain ⟨chunk, hchunk, rfl⟩ := List.mem_map.mp hev
    have htrack : chunk.track ≠ other := by
      rw [h chunk hchunk]
      exact hne.symm
    exact ⟨if_neg htrack, if_neg htrack⟩
  constructor
  · exact List.filterMap_eq_nil_iff.mpr fun event hev => (hnone event hev).1
  · rw [payloadOn, List.filterMap_eq_nil_iff.mpr fun event hev => (hnone event hev).2,
      payloads_nil]

theorem spansOn_gaps (h : ∀ gap ∈ gaps, gap.track = track) :
    spansOn track (gaps.map .gap) = gaps.map RecordingGap.span := by
  rw [spansOn, List.filterMap_map, ← List.filterMap_eq_map]
  exact List.filterMap_congr fun gap hgap => if_pos (h gap hgap)

theorem payloadOn_gaps (track : RecordingTrackKind) (gaps : List RecordingGap) :
    payloadOn track (gaps.map .gap) = [] := by
  have hnone : (gaps.map RecordingCaptureEvent.gap).filterMap (chunkOn track) = [] := by
    rw [List.filterMap_eq_nil_iff]
    intro event hev
    obtain ⟨gap, -, rfl⟩ := List.mem_map.mp hev
    rfl
  rw [payloadOn, hnone, payloads_nil]

theorem gaps_elsewhere (h : ∀ gap ∈ gaps, gap.track = track) (hne : other ≠ track) :
    spansOn other (gaps.map .gap) = [] := by
  rw [spansOn, List.filterMap_eq_nil_iff]
  intro event hev
  obtain ⟨gap, hgap, rfl⟩ := List.mem_map.mp hev
  rw [spanOn, if_neg]
  rw [h gap hgap]
  exact hne.symm

end Delivered

/-! ## The invariant -/

namespace RecordingCapturePipeline

def heldBack (pipeline : RecordingCapturePipeline) (track : RecordingTrackKind) :
    List RecordingPCMChunk :=
  (pipeline.accumulator.pendingByTrack track).toList

end RecordingCapturePipeline

def Recordable (chunk : RecordingPCMChunk) : Prop :=
  0 < chunk.sampleCount ∧ chunk.sampleCount ≤ canonicalSampleRate

structure Pending (track : RecordingTrackKind) (chunk : RecordingPCMChunk) : Prop where
  track_eq : chunk.track = track
  sound : Sound chunk
  short : chunk.sampleCount < canonicalSampleRate

/-- The delivered events and what is held back account for everything up to the
cursors, and for every byte that was accepted. -/
structure Covers (pipeline : RecordingCapturePipeline) (delivered : List RecordingCaptureEvent)
    (accepted : List RecordingPCMChunk) : Prop where
  swept : ∀ track, sweep 0 (spansOn track delivered ++ spans (pipeline.heldBack track)) =
    some (pipeline.timeline.trackEnds track)
  payload : ∀ track, payloadOn track delivered ++ payloads (pipeline.heldBack track) =
    acceptedPayload track accepted
  recordable : ∀ chunk, RecordingCaptureEvent.chunk chunk ∈ delivered → Recordable chunk
  pending : ∀ track, ∀ chunk ∈ pipeline.heldBack track, Pending track chunk

variable {pipeline later : RecordingCapturePipeline} {delivered events : List RecordingCaptureEvent}
  {accepted audio : List RecordingPCMChunk} {track : RecordingTrackKind}

/-- The invariant is about the cursors and the accumulator alone. -/
theorem Covers.congr (h : Covers pipeline delivered accepted)
    (htime : later.timeline.trackEnds = pipeline.timeline.trackEnds)
    (haccumulator : later.accumulator.pendingByTrack = pipeline.accumulator.pendingByTrack) :
    Covers later delivered accepted := by
  have hheld : later.heldBack = pipeline.heldBack := by
    funext track
    rw [RecordingCapturePipeline.heldBack, haccumulator]
    rfl
  constructor
  · intro track
    rw [hheld, htime]
    exact h.swept track
  · intro track
    rw [hheld]
    exact h.payload track
  · exact h.recordable
  · intro track
    rw [hheld]
    exact h.pending track

theorem Covers.start (h : Covers pipeline delivered accepted) (track : RecordingTrackKind) :
    ∃ stop, sweep 0 (spansOn track delivered) = some stop ∧
      sweep stop (spans (pipeline.heldBack track)) =
        some (pipeline.timeline.trackEnds track) :=
  sweep_split (h.swept track)

/-- One call on a track: its events lead on from what was held back before to
what is held back after it, and carry the bytes of both and of the audio that
came in. -/
structure Continues (track : RecordingTrackKind) (pipeline later : RecordingCapturePipeline)
    (events : List RecordingCaptureEvent) (audio : List RecordingPCMChunk) : Prop where
  elsewhere : ∀ other, other ≠ track →
    spansOn other events = [] ∧ payloadOn other events = [] ∧
      acceptedPayload other audio = [] ∧ later.heldBack other = pipeline.heldBack other ∧
      later.timeline.trackEnds other = pipeline.timeline.trackEnds other
  swept : ∀ start, sweep start (spans (pipeline.heldBack track)) =
      some (pipeline.timeline.trackEnds track) →
    sweep start (spansOn track events ++ spans (later.heldBack track)) =
      some (later.timeline.trackEnds track)
  payload : payloadOn track events ++ payloads (later.heldBack track) =
    payloads (pipeline.heldBack track) ++ acceptedPayload track audio
  recordable : ∀ chunk, RecordingCaptureEvent.chunk chunk ∈ events → Recordable chunk
  pending : ∀ chunk ∈ later.heldBack track, Pending track chunk

theorem Covers.continues (h : Covers pipeline delivered accepted)
    (hnext : Continues track pipeline later events audio) :
    Covers later (delivered ++ events) (accepted ++ audio) := by
  constructor
  · intro other
    obtain ⟨stop, hstop, hheld⟩ := h.start other
    rw [spansOn_append, List.append_assoc]
    by_cases hsame : other = track
    · subst hsame
      exact sweep_join hstop (hnext.swept stop hheld)
    · obtain ⟨hspans, -, -, hback, hend⟩ := hnext.elsewhere other hsame
      rw [hspans, hback, hend, List.nil_append]
      exact h.swept other
  · intro other
    rw [payloadOn_append, acceptedPayload_append, ← h.payload other]
    by_cases hsame : other = track
    · subst hsame
      rw [List.append_assoc, hnext.payload, List.append_assoc]
    · obtain ⟨-, hpay, haudio, hback, -⟩ := hnext.elsewhere other hsame
      rw [hpay, haudio, hback, List.append_nil, List.append_nil]
  · intro chunk hchunk
    rcases List.mem_append.mp hchunk with hold | hnew
    · exact h.recordable chunk hold
    · exact hnext.recordable chunk hnew
  · intro other chunk hchunk
    by_cases hsame : other = track
    · subst hsame
      exact hnext.pending chunk hchunk
    · obtain ⟨-, -, -, hback, -⟩ := hnext.elsewhere other hsame
      rw [hback] at hchunk
      exact h.pending other chunk hchunk

/-! ## One input -/

variable {held : RecordingPCMChunk}

section Inputs

variable {sameText : String → String → Bool} {chunk : RecordingPCMChunk}
  {accumulator cutLater : RecordingChunkAccumulator} {emitted : List RecordingPCMChunk}

def toCut (sameText : String → String → Bool) (pending : Option RecordingPCMChunk)
    (chunk : RecordingPCMChunk) : RecordingPCMChunk :=
  match pending with
  | none => chunk
  | some held =>
    if held.canMerge sameText chunk then
      { held with
        sampleCount := held.sampleCount + chunk.sampleCount,
        payload := held.payload ++ chunk.payload }
    else chunk

theorem merge_ok {merged : RecordingPCMChunk} (h : held.merge chunk = .ok merged) :
    merged = { held with
      sampleCount := held.sampleCount + chunk.sampleCount,
      payload := held.payload ++ chunk.payload } := by
  simp only [RecordingPCMChunk.merge, bind_ok_iff] at h
  obtain ⟨_, -, hres⟩ := h
  cases hres
  rfl

theorem canMerge_spec (h : held.canMerge sameText chunk = true) :
    held.track = chunk.track ∧ held.sampleEnd = chunk.sampleStart ∧
      held.format = chunk.format := by
  simp only [RecordingPCMChunk.canMerge, Bool.and_eq_true, beq_iff_eq] at h
  obtain ⟨⟨⟨⟨⟨⟨⟨⟨-, htrack⟩, hend⟩, hformat⟩, -⟩, -⟩, -⟩, -⟩, -⟩ := h
  exact ⟨htrack, hend, hformat⟩

theorem pendingByTrack_cut {error : Except CaptureError (List RecordingPCMChunk)}
    (h : accumulator.cut chunk track = (error, cutLater)) :
    ∃ left, chunk.drain (chunk.sampleCount / canonicalSampleRate) = (error, left) ∧
      cutLater.pendingByTrack = Function.update accumulator.pendingByTrack track left := by
  unfold RecordingChunkAccumulator.cut at h
  cases h
  exact ⟨_, rfl, rfl⟩

theorem sound_merged (hheld : Sound held) (hchunk : Sound chunk)
    (hformat : held.format = chunk.format) :
    Sound { held with
      sampleCount := held.sampleCount + chunk.sampleCount,
      payload := held.payload ++ chunk.payload } := by
  have hframe : chunk.bytesPerFrame = held.bytesPerFrame := by
    rw [RecordingPCMChunk.bytesPerFrame, RecordingPCMChunk.bytesPerFrame, hformat]
  constructor
  · have hpos := hheld.count_pos
    show 0 < held.sampleCount + chunk.sampleCount
    omega
  · show (held.payload ++ chunk.payload).length =
      (held.sampleCount + chunk.sampleCount) * held.bytesPerFrame
    rw [List.length_append, hheld.payload_length, hchunk.payload_length, hframe, Nat.add_mul]

/-- What accepting a chunk emits and holds back: the held back chunk, then the
chunk, cut into seconds. -/
theorem accumulator_accept_ok
    (h : accumulator.accept sameText chunk = (.ok emitted, cutLater))
    (hheld : ∀ held ∈ accumulator.pendingByTrack chunk.track, Pending chunk.track held)
    (hsound : Sound chunk) :
    ∃ left, cutLater.pendingByTrack =
        Function.update accumulator.pendingByTrack chunk.track left ∧
      (∀ part ∈ emitted, part.track = chunk.track ∧ Recordable part) ∧
      (∀ part ∈ left, Pending chunk.track part) ∧
      (∀ start, sweep start (spans (accumulator.pendingByTrack chunk.track).toList) =
          some chunk.sampleStart →
        sweep start (spans (emitted ++ left.toList)) = some chunk.sampleEnd) ∧
      payloads (emitted ++ left.toList) =
        payloads (accumulator.pendingByTrack chunk.track).toList ++ chunk.payload := by
  have hwhole : ∀ {part : RecordingPCMChunk}, part.sampleCount = canonicalSampleRate →
      Recordable part := by
    intro part hcnt
    rw [Recordable, hcnt]
    exact ⟨by decide, le_rfl⟩
  -- cutting any sound chunk of the track
  have hcut : ∀ {piece : RecordingPCMChunk} {parts left}, Sound piece →
      piece.track = chunk.track →
      piece.drain (piece.sampleCount / canonicalSampleRate) = (.ok parts, left) →
      (∀ part ∈ parts, part.track = chunk.track ∧ Recordable part) ∧
      (∀ part ∈ left, Pending chunk.track part) ∧
      sweep piece.sampleStart (spans (parts ++ left.toList)) = some piece.sampleEnd ∧
      payloads (parts ++ left.toList) = piece.payload := by
    intro piece parts left hpiece htrack hdrain
    have hcuts := drain_ok hpiece le_rfl hdrain
    refine ⟨?_, ?_, hcuts.swept, hcuts.payload⟩
    · intro part hpart
      exact ⟨(hcuts.emitted_track part hpart).trans htrack,
        hwhole (hcuts.emitted_count part hpart)⟩
    · intro part hpart
      exact ⟨(hcuts.left_track part hpart).trans htrack, hcuts.left_sound part hpart,
        hcuts.left_count part hpart⟩
  unfold RecordingChunkAccumulator.accept at h
  rw [validated_iff.mpr hsound] at h
  dsimp only at h
  cases hpending : accumulator.pendingByTrack chunk.track with
  | none =>
    rw [hpending] at h
    obtain ⟨left, hdrain, hlat⟩ := pendingByTrack_cut h
    obtain ⟨hparts, hleft, hswept, hpay⟩ := hcut hsound rfl hdrain
    refine ⟨left, hlat, hparts, hleft, ?_, hpay⟩
    intro start hstart
    rw [Option.toList_none, spans_nil, sweep, Option.some.injEq] at hstart
    rw [hstart]
    exact hswept
  | some held =>
    have hpend := hheld held (by rw [hpending]; exact Option.mem_some_self held)
    rw [hpending] at h
    dsimp only at h
    split at h
    · rename_i hmerge
      obtain ⟨htrack, hend, hformat⟩ := canMerge_spec hmerge
      split at h
      · cases h
      rename_i merged hmerged
      obtain rfl := merge_ok hmerged
      obtain ⟨left, hdrain, hlat⟩ := pendingByTrack_cut h
      obtain ⟨hparts, hleft, hswept, hpay⟩ :=
        hcut (sound_merged hpend.sound hsound hformat) htrack hdrain
      refine ⟨left, hlat, hparts, hleft, ?_, ?_⟩
      · intro start hstart
        have hfrom : held.span.start = start := by
          by_contra hne
          rw [Option.toList_some, spans, List.map_cons, sweep, if_neg hne] at hstart
          cases hstart
        have hstop : ({ held with
            sampleCount := held.sampleCount + chunk.sampleCount,
            payload := held.payload ++ chunk.payload } : RecordingPCMChunk).sampleEnd =
              chunk.sampleEnd := by
          rw [RecordingPCMChunk.sampleEnd] at hend
          show held.sampleStart + (held.sampleCount + chunk.sampleCount) =
            chunk.sampleStart + chunk.sampleCount
          omega
        rw [hstop] at hswept
        rw [← hfrom]
        exact hswept
      · rw [hpay, Option.toList_some, payloads_single]
    · cases hcutEq : accumulator.cut chunk chunk.track with
      | mk result after =>
        rw [hcutEq] at h
        cases result with
        | error error => cases h
        | ok parts =>
          cases h
          obtain ⟨left, hdrain, hlat⟩ := pendingByTrack_cut hcutEq
          obtain ⟨hparts, hleft, hswept, hpay⟩ := hcut hsound rfl hdrain
          refine ⟨left, hlat, ?_, hleft, ?_, ?_⟩
          · intro part hpart
            rcases List.mem_cons.mp hpart with rfl | hpart
            · exact ⟨hpend.track_eq, hpend.sound.count_pos, hpend.short.le⟩
            · exact hparts part hpart
          · intro start hstart
            rw [List.cons_append, ← List.singleton_append, spans_append]
            exact sweep_join hstart hswept
          · rw [List.cons_append, ← List.singleton_append, payloads_append, hpay,
              Option.toList_some]

def Silent (events : List RecordingCaptureEvent) : Prop :=
  ∀ event ∈ events, (∀ audio, event ≠ .chunk audio) ∧ ∀ gap, event ≠ .gap gap

theorem Silent.spansOn (h : Silent events) (track : RecordingTrackKind) :
    spansOn track events = [] := by
  rw [Capture.spansOn, List.filterMap_eq_nil_iff]
  intro event hev
  obtain ⟨hchunk, hgap⟩ := h event hev
  cases event with
  | chunk audio => exact absurd rfl (hchunk audio)
  | gap gap => exact absurd rfl (hgap gap)
  | level track level => rfl
  | failure failure => rfl

theorem Silent.payloadOn (h : Silent events) (track : RecordingTrackKind) :
    payloadOn track events = [] := by
  have hnone : events.filterMap (chunkOn track) = [] := by
    rw [List.filterMap_eq_nil_iff]
    intro event hev
    cases event with
    | chunk audio => exact absurd rfl ((h _ hev).1 audio)
    | gap gap => rfl
    | level track level => rfl
    | failure failure => rfl
  rw [Capture.payloadOn, hnone, payloads_nil]

theorem continues_accept {placed : RecordingPCMChunk} (before trail : List RecordingCaptureEvent)
    (hacc : accumulator.accept sameText placed = (.ok emitted, cutLater))
    (htrack : placed.track = track) (hsound : Sound placed)
    (hheld : ∀ held ∈ accumulator.pendingByTrack placed.track, Pending placed.track held)
    (hkept : ∀ other, other ≠ track →
      accumulator.pendingByTrack other = pipeline.accumulator.pendingByTrack other)
    (helsewhere : ∀ other, other ≠ track → spansOn other before = [] ∧ payloadOn other before = [])
    (hswept : ∀ start, sweep start (spans (pipeline.heldBack track)) =
        some (pipeline.timeline.trackEnds track) →
      sweep start (spansOn track before ++ spans (accumulator.pendingByTrack track).toList) =
        some placed.sampleStart)
    (hpay : payloadOn track before ++ payloads (accumulator.pendingByTrack track).toList =
      payloads (pipeline.heldBack track))
    (hb : ∀ chunk, RecordingCaptureEvent.chunk chunk ∈ before → Recordable chunk)
    (htrail : Silent trail)
    (hevs : events = before ++ emitted.map .chunk ++ trail)
    (haccumulator : later.accumulator = cutLater)
    (htime : later.timeline.trackEnds =
      Function.update pipeline.timeline.trackEnds track placed.sampleEnd) :
    Continues track pipeline later events [placed] := by
  subst htrack hevs
  obtain ⟨left, hleft, hparts, hpend, hcut, hbytes⟩ :=
    accumulator_accept_ok hacc hheld hsound
  have hchunks : ∀ part ∈ emitted, part.track = placed.track := fun part hpart =>
    (hparts part hpart).1
  have hback : ∀ other, later.heldBack other =
      (Function.update accumulator.pendingByTrack placed.track left other).toList := by
    intro other
    rw [RecordingCapturePipeline.heldBack, haccumulator, hleft]
  have hself : later.heldBack placed.track = left.toList := by
    rw [hback, Function.update_self]
  constructor
  · intro other hne
    obtain ⟨hspans, hbytesBefore⟩ := helsewhere other hne
    obtain ⟨hemitted, hemittedBytes⟩ := chunks_elsewhere hchunks hne
    refine ⟨?_, ?_, ?_, ?_, ?_⟩
    · rw [spansOn_append, spansOn_append, hspans, hemitted, htrail.spansOn]
      rfl
    · rw [payloadOn_append, payloadOn_append, hbytesBefore, hemittedBytes, htrail.payloadOn]
      rfl
    · rw [acceptedPayload, List.filter_eq_nil_iff.mpr, payloads_nil]
      intro audio haudio
      rw [List.mem_singleton.mp haudio]
      simpa using hne.symm
    · rw [hback, Function.update_of_ne hne, hkept other hne]
      rfl
    · rw [htime, Function.update_of_ne hne]
  · intro start hstart
    obtain ⟨stop, hstop, hrest⟩ := sweep_split (hswept start hstart)
    rw [spansOn_append, spansOn_append, spansOn_chunks hchunks, htrail.spansOn, List.append_nil,
      hself, htime, Function.update_self, List.append_assoc, ← spans_append]
    exact sweep_join hstop (hcut stop hrest)
  · rw [payloadOn_append, payloadOn_append, payloadOn_chunks hchunks, htrail.payloadOn,
      List.append_nil, hself, List.append_assoc, ← payloads_append, hbytes, ← List.append_assoc,
      hpay, acceptedPayload, List.filter_cons_of_pos (by simp), List.filter_nil,
      payloads_single]
  · intro audio haudio
    rcases List.mem_append.mp haudio with haudio | hlate
    · rcases List.mem_append.mp haudio with hearly | hmap
      · exact hb audio hearly
      · obtain ⟨part, hpart, heq⟩ := List.mem_map.mp hmap
        cases heq
        exact (hparts audio hpart).2
    · exact absurd rfl ((htrail _ hlate).1 audio)
  · intro audio haudio
    rw [hself] at haudio
    exact hpend audio (Option.mem_toList.mp haudio)

theorem shouldEmit_silent (emits : Bool) (level : Double) :
    Silent (if emits then [RecordingCaptureEvent.level track level] else []) := by
  intro event hev
  split at hev
  · rw [List.mem_singleton.mp hev]
    exact ⟨fun _ => RecordingCaptureEvent.noConfusion, fun _ => RecordingCaptureEvent.noConfusion⟩
  · cases hev

variable {level : Double}

theorem processChunk_ok (hcov : Covers pipeline delivered accepted)
    (h : pipeline.processChunk sameText chunk level = (.ok events, later)) :
    ∃ placed, (pipeline.timeline.accept chunk).1 = .ok placed ∧
      Continues chunk.track pipeline later events [placed.chunk] := by
  unfold RecordingCapturePipeline.processChunk at h
  cases haccept : pipeline.timeline.accept chunk with
  | mk result timeline =>
    rw [haccept] at h
    cases result with
    | error error => cases h
    | ok placed =>
      obtain ⟨hpl, hends⟩ := accept_ok haccept
      refine ⟨placed, rfl, ?_⟩
      have hpending := hcov.pending chunk.track
      rw [RecordingCapturePipeline.heldBack] at hpending
      have htrail : Silent (if (pipeline.levelThrottle.shouldEmit placed.chunk).1 then
          [RecordingCaptureEvent.level chunk.track level] else []) :=
        shouldEmit_silent _ level
      dsimp only at h
      rw [hpl.gap_eq] at h
      by_cases hgap : placed.chunk.sampleStart = pipeline.timeline.trackEnds chunk.track
      · rw [if_pos hgap] at h
        dsimp only at h
        cases hacc : pipeline.accumulator.accept sameText placed.chunk with
        | mk result accumulator =>
          rw [hacc] at h
          cases result with
          | error error => cases h
          | ok emitted =>
            cases h
            apply continues_accept [] _ hacc hpl.track hpl.sound
            · rw [hpl.track]
              exact fun held hheld => hpending held (Option.mem_toList.mpr hheld)
            · exact fun other _ => rfl
            · exact fun other _ => ⟨rfl, rfl⟩
            · intro start hstart
              rw [hgap]
              exact hstart
            · rfl
            · intro audio haudio
              cases haudio
            · exact htrail
            · rfl
            · rfl
            · exact hends
      · rw [if_neg hgap] at h
        simp only [RecordingChunkAccumulator.flush] at h
        cases hacc : (pipeline.accumulator.setPending chunk.track none).accept sameText
            placed.chunk with
        | mk result accumulator =>
          rw [hacc] at h
          cases result with
          | error error => cases h
          | ok emitted =>
            cases h
            have hnone : (pipeline.accumulator.setPending chunk.track none).pendingByTrack
                chunk.track = none := Function.update_self ..
            have htracks : ∀ held ∈ pipeline.heldBack chunk.track,
                held.track = chunk.track := fun held hheld =>
              (hcov.pending chunk.track held hheld).track_eq
            apply continues_accept ((pipeline.heldBack chunk.track).map .chunk ++
              [.gap ⟨chunk.track, pipeline.timeline.trackEnds chunk.track,
                placed.chunk.sampleStart - pipeline.timeline.trackEnds chunk.track,
                .sourceDiscontinuity⟩]) _ hacc hpl.track hpl.sound
            · rw [hpl.track, hnone]
              intro held hheld
              cases hheld
            · exact fun other hne => Function.update_of_ne hne ..
            · intro other hne
              obtain ⟨hspans, hbytes⟩ := chunks_elsewhere htracks hne
              have hgapElsewhere : spansOn other [RecordingCaptureEvent.gap
                  ⟨chunk.track, pipeline.timeline.trackEnds chunk.track,
                    placed.chunk.sampleStart - pipeline.timeline.trackEnds chunk.track,
                    .sourceDiscontinuity⟩] = [] := by
                rw [spansOn, List.filterMap_cons, spanOn, if_neg hne.symm,
                  List.filterMap_nil]
              rw [spansOn_append, payloadOn_append, hspans, hbytes, hgapElsewhere]
              exact ⟨rfl, rfl⟩
            · intro start hstart
              rw [hnone, Option.toList_none, spans_nil, List.append_nil, spansOn_append]
              rw [spansOn_chunks htracks]
              refine sweep_join hstart ?_
              rw [spansOn, List.filterMap_cons, spanOn, if_pos rfl, List.filterMap_nil]
              exact sweep_single rfl (Nat.add_sub_cancel' hpl.forward)
            · rw [hnone, Option.toList_none, payloads_nil, List.append_nil,
                payloadOn_append]
              rw [payloadOn_chunks htracks]
              exact List.append_nil _
            · intro audio haudio
              rcases List.mem_append.mp haudio with hflushed | hlast
              · obtain ⟨held, hheld, heq⟩ := List.mem_map.mp hflushed
                cases heq
                have hpend := hpending audio hheld
                exact ⟨hpend.sound.count_pos, hpend.short.le⟩
              · cases List.mem_singleton.mp hlast
            · exact htrail
            · rfl
            · rfl
            · exact hends

theorem processChunk_refused {error : CaptureError}
    (href : (pipeline.timeline.accept chunk).1 = .error error) :
    (pipeline.processChunk sameText chunk level).1 = .error error ∧
      (pipeline.processChunk sameText chunk level).2.timeline.trackEnds =
        pipeline.timeline.trackEnds ∧
      (pipeline.processChunk sameText chunk level).2.accumulator = pipeline.accumulator := by
  unfold RecordingCapturePipeline.processChunk
  cases hacc : pipeline.timeline.accept chunk with
  | mk result timeline =>
    rw [hacc] at href
    cases href
    exact ⟨rfl, accept_error hacc, rfl⟩

variable {interval : RecordingDroppedSourceInterval} {reason : RecordingGapReason}

theorem processDropped_ok (hcov : Covers pipeline delivered accepted) (htrail : Silent events)
    {dropped : List RecordingCaptureEvent}
    (h : pipeline.processDropped interval reason = (.ok dropped, later)) :
    Continues interval.track pipeline later (dropped ++ events) [] := by
  unfold RecordingCapturePipeline.processDropped at h
  cases hacc : pipeline.timeline.acceptDropped interval reason with
  | mk result timeline =>
    rw [hacc] at h
    cases result with
    | error error => cases h
    | ok gaps =>
      cases h
      obtain ⟨cursor, hswept, hgaps, -, hends⟩ := acceptDropped_ok hacc
      have htracks : ∀ held ∈ pipeline.heldBack interval.track,
          held.track = interval.track := fun held hheld =>
        (hcov.pending interval.track held hheld).track_eq
      have hself : (pipeline.accumulator.setPending interval.track none).pendingByTrack
          interval.track = none := Function.update_self ..
      constructor
      · intro other hne
        obtain ⟨hspans, hbytes⟩ := chunks_elsewhere htracks hne
        rw [RecordingCapturePipeline.heldBack] at hspans hbytes
        refine ⟨?_, ?_, rfl, ?_, ?_⟩
        · rw [spansOn_append, spansOn_append, htrail.spansOn, gaps_elsewhere hgaps hne]
          rw [hspans]
          rfl
        · rw [payloadOn_append, payloadOn_append, htrail.payloadOn, payloadOn_gaps]
          rw [hbytes]
          rfl
        · exact congrArg Option.toList (Function.update_of_ne hne ..)
        · exact (congrFun hends other).trans (Function.update_of_ne hne ..)
      · intro start hstart
        rw [RecordingCapturePipeline.heldBack] at hstart htracks
        show sweep start (spansOn interval.track _ ++ spans (Option.toList
          ((pipeline.accumulator.setPending interval.track none).pendingByTrack
            interval.track))) = some (timeline.trackEnds interval.track)
        rw [hself, Option.toList_none, spans_nil, List.append_nil, spansOn_append,
          spansOn_append, htrail.spansOn, List.append_nil, hends, Function.update_self]
        rw [spansOn_chunks htracks, spansOn_gaps hgaps]
        exact sweep_join hstart hswept
      · rw [RecordingCapturePipeline.heldBack] at htracks ⊢
        show payloadOn interval.track _ ++ payloads (Option.toList
          ((pipeline.accumulator.setPending interval.track none).pendingByTrack
            interval.track)) = _
        rw [hself, Option.toList_none, payloads_nil, List.append_nil, payloadOn_append,
          payloadOn_append, htrail.payloadOn, List.append_nil, payloadOn_gaps, List.append_nil]
        rw [payloadOn_chunks htracks]
        exact (List.append_nil _).symm
      · intro audio haudio
        rcases List.mem_append.mp haudio with haudio | hlate
        · rcases List.mem_append.mp haudio with hflushed | hgap
          · obtain ⟨held, hheld, heq⟩ := List.mem_map.mp hflushed
            cases heq
            have hpend := hcov.pending interval.track audio hheld
            exact ⟨hpend.sound.count_pos, hpend.short.le⟩
          · obtain ⟨gap, -, heq⟩ := List.mem_map.mp hgap
            cases heq
        · exact absurd rfl ((htrail _ hlate).1 audio)
      · intro audio haudio
        have hnil : audio ∈ (Option.toList
            ((pipeline.accumulator.setPending interval.track none).pendingByTrack
              interval.track)) := haudio
        rw [hself] at hnil
        cases hnil

/-- An interval that the timeline refuses changes no cursor; it takes what is
held back of its track. -/
theorem processDropped_refused {error : CaptureError}
    (href : (pipeline.timeline.acceptDropped interval reason).1 = .error error)
    (hnone : pipeline.accumulator.pendingByTrack interval.track = none) :
    (pipeline.processDropped interval reason).1 = .error error ∧
      (pipeline.processDropped interval reason).2.timeline.trackEnds =
        pipeline.timeline.trackEnds ∧
      (pipeline.processDropped interval reason).2.accumulator.pendingByTrack =
        pipeline.accumulator.pendingByTrack := by
  unfold RecordingCapturePipeline.processDropped
  cases hacc : pipeline.timeline.acceptDropped interval reason with
  | mk result timeline =>
    rw [hacc] at href
    cases href
    refine ⟨rfl, acceptDropped_error hacc, ?_⟩
    show Function.update pipeline.accumulator.pendingByTrack interval.track none = _
    rw [← hnone, Function.update_eq_self]

theorem accumulator_accept_exists (hsound : Sound chunk) (hfits : fitsInt64 chunk.sampleEnd = true)
    (hheld : ∀ held ∈ accumulator.pendingByTrack chunk.track, 0 < held.sampleCount)
    (hstamp : Stamped (toCut sameText (accumulator.pendingByTrack chunk.track) chunk)) :
    ∃ emitted later, accumulator.accept sameText chunk = (.ok emitted, later) := by
  have hcut : ∀ {piece : RecordingPCMChunk}, 0 < piece.sampleCount → Stamped piece →
      fitsInt64 piece.sampleEnd = true →
      ∃ emitted later, accumulator.cut piece chunk.track = (.ok emitted, later) := by
    intro piece hcnt hpiece hend
    obtain ⟨emitted, left, hdrain⟩ : ∃ emitted left,
        piece.drain (piece.sampleCount / canonicalSampleRate) = (.ok emitted, left) :=
      drain_exists hcnt hpiece hend
    exact ⟨emitted, accumulator.setPending chunk.track left, by
      rw [RecordingChunkAccumulator.cut, hdrain]⟩
  unfold RecordingChunkAccumulator.accept
  rw [validated_iff.mpr hsound]
  dsimp only
  cases hpend : accumulator.pendingByTrack chunk.track with
  | none =>
    rw [hpend] at hstamp
    exact hcut hsound.count_pos hstamp hfits
  | some held =>
    rw [hpend, toCut] at hstamp
    dsimp only at hstamp ⊢
    by_cases hmerge : held.canMerge sameText chunk = true
    · rw [if_pos hmerge] at hstamp ⊢
      obtain ⟨-, hend, -⟩ := canMerge_spec hmerge
      rw [RecordingPCMChunk.sampleEnd] at hend
      have hbound := (fitsInt64_iff.mp hfits).2
      rw [RecordingPCMChunk.sampleEnd] at hbound
      have hcnt : fitsInt64 ((held.sampleCount : Int) + chunk.sampleCount) = true := by
        rw [fitsInt64_iff]
        unfold int64Min
        omega
      have hmerged : held.merge chunk = .ok { held with
          sampleCount := held.sampleCount + chunk.sampleCount,
          payload := held.payload ++ chunk.payload } := by
        simp only [RecordingPCMChunk.merge, bind_ok_iff]
        exact ⟨(), raiseFirst_eq_ok.mpr (by simp [hcnt]), rfl⟩
      rw [hmerged]
      dsimp only
      apply hcut
      · have hpos := hheld held (by rw [hpend]; exact Option.mem_some_self held)
        show 0 < held.sampleCount + chunk.sampleCount
        omega
      · exact hstamp
      · rw [fitsInt64_iff]
        have hlow : int64Min ≤ 0 := by decide
        show int64Min ≤ ((held.sampleStart + (held.sampleCount + chunk.sampleCount) : Nat) : Int) ∧
          ((held.sampleStart + (held.sampleCount + chunk.sampleCount) : Nat) : Int) ≤ int64Max
        omega
    · rw [if_neg hmerge] at hstamp ⊢
      obtain ⟨emitted, later, hlat⟩ := hcut hsound.count_pos hstamp hfits
      exact ⟨held :: emitted, later, by rw [hlat]; rfl⟩

end Inputs

/-! ## Calls that lose nothing -/

section Lossless

variable (sameText : String → String → Bool)

def refused (pipeline : RecordingCapturePipeline) : StartupInputKind → Bool
  | .chunk audio _ => !(pipeline.timeline.accept audio).1.isOk
  | .droppedInterval interval reason | .failure interval reason _ =>
    !(pipeline.timeline.acceptDropped interval reason).1.isOk

/-- The input leaves no audio behind: the seconds of an accepted chunk have
timestamps, and no audio is held back where an interval is refused. -/
def careful (pipeline : RecordingCapturePipeline) : StartupInputKind → Bool
  | .chunk audio _ =>
    match (pipeline.timeline.accept audio).1 with
    | .error _ => true
    | .ok placed => decide (Stamped (toCut sameText
        (pipeline.accumulator.pendingByTrack audio.track) placed.chunk))
  | .droppedInterval interval reason | .failure interval reason _ =>
    (pipeline.timeline.acceptDropped interval reason).1.isOk ||
      (pipeline.accumulator.pendingByTrack interval.track).isNone

def moves (pipeline : RecordingCapturePipeline) : StartupInputKind → Bool
  | .chunk .. => true
  | .droppedInterval interval reason | .failure interval reason _ =>
    (pipeline.accumulator.pendingByTrack interval.track).isSome ||
      (pipeline.timeline.acceptDropped interval reason).2.trackEnds interval.track !=
        pipeline.timeline.trackEnds interval.track

def allPlaced (pipeline : RecordingCapturePipeline) : List StartupInputKind → Bool
  | [] => true
  | kind :: rest => !refused pipeline kind && allPlaced (pipeline.process sameText kind).2 rest

/-- Every input is careful in its turn, and none is refused after one that
moved something in the same call. -/
def lossless (pipeline : RecordingCapturePipeline) : List StartupInputKind → Bool
  | [] => true
  | kind :: rest =>
    careful sameText pipeline kind && (refused pipeline kind ||
      (lossless (pipeline.process sameText kind).2 rest &&
        (!moves pipeline kind || allPlaced sameText (pipeline.process sameText kind).2 rest)))

/-- The call loses nothing: the inputs that it processes are replayed without
loss. -/
def losslessCall (pipeline : RecordingCapturePipeline) (request : Call) : Bool :=
  match request.input with
  | .ok (some kind) =>
    match pipeline.gate kind with
    | (.opened kinds, behind) => lossless sameText behind kinds
    | (.closed _, _) => true
  | _ => true

def acceptedOf (pipeline : RecordingCapturePipeline) : StartupInputKind → List RecordingPCMChunk
  | .chunk audio _ =>
    match (pipeline.timeline.accept audio).1 with
    | .error _ => []
    | .ok placed => [placed.chunk]
  | .droppedInterval .. | .failure .. => []

def acceptedIn (pipeline : RecordingCapturePipeline) :
    List StartupInputKind → List RecordingPCMChunk
  | [] => []
  | kind :: rest => acceptedOf pipeline kind ++
      match pipeline.process sameText kind with
      | (.error _, _) => []
      | (.ok _, pipeline) => acceptedIn pipeline rest

def acceptedDuring (pipeline : RecordingCapturePipeline) (request : Call) :
    List RecordingPCMChunk :=
  match request.input with
  | .ok (some kind) =>
    match pipeline.gate kind with
    | (.opened kinds, behind) => acceptedIn sameText behind kinds
    | (.closed _, _) => []
  | _ => []

variable {sameText} {kind : StartupInputKind} {kinds : List StartupInputKind}

/-- What a call delivers: nothing when it throws. -/
def eventsOf : Except CaptureError (List RecordingCaptureEvent) → List RecordingCaptureEvent
  | .ok events => events
  | .error _ => []

theorem isOk_iff {ε α : Type} {res : Except ε α} :
    res.isOk = true ↔ ∃ value, res = .ok value := by
  cases res <;> simp [Except.isOk, Except.toBool]

theorem not_isOk_iff {ε α : Type} {res : Except ε α} :
    res.isOk = false ↔ ∃ error, res = .error error := by
  cases res <;> simp [Except.isOk, Except.toBool]

theorem Covers.held_end (h : Covers pipeline delivered accepted)
    (hheld : pipeline.accumulator.pendingByTrack track = some held) :
    held.sampleEnd = pipeline.timeline.trackEnds track := by
  obtain ⟨stop, -, hswept⟩ := h.start track
  rw [RecordingCapturePipeline.heldBack, hheld, Option.toList_some, spans, List.map_cons,
    List.map_nil, sweep] at hswept
  split at hswept
  · rw [sweep, Option.some.injEq] at hswept
    exact hswept
  · cases hswept

theorem processDropped_eq {interval : RecordingDroppedSourceInterval} {reason : RecordingGapReason}
    {gaps : List RecordingGap}
    (hgaps : (pipeline.timeline.acceptDropped interval reason).1 = .ok gaps) :
    pipeline.processDropped interval reason =
      (.ok ((pipeline.heldBack interval.track).map RecordingCaptureEvent.chunk ++
        gaps.map RecordingCaptureEvent.gap), (pipeline.processDropped interval reason).2) := by
  refine Prod.ext ?_ rfl
  unfold RecordingCapturePipeline.processDropped
  dsimp only
  rw [hgaps]
  rfl

theorem process_ok (hcov : Covers pipeline delivered accepted)
    (hcare : careful sameText pipeline kind = true) (hplaced : refused pipeline kind = false) :
    ∃ events later, pipeline.process sameText kind = (.ok events, later) ∧
      Continues kind.track pipeline later events (acceptedOf pipeline kind) := by
  cases kind with
  | chunk audio level =>
    have hok := isOk_iff.mp (Bool.not_eq_eq_eq_not.mp hplaced)
    obtain ⟨placed, haccepted⟩ := hok
    simp only [careful, haccepted, decide_eq_true_eq] at hcare
    have hprocess : ∃ events later,
        pipeline.processChunk sameText audio level = (.ok events, later) := by
      unfold RecordingCapturePipeline.processChunk
      cases haccept : pipeline.timeline.accept audio with
      | mk result timeline =>
        rw [haccept] at haccepted
        cases haccepted
        obtain ⟨hpl, -⟩ := accept_ok haccept
        dsimp only
        rw [hpl.gap_eq]
        by_cases hgap : placed.chunk.sampleStart = pipeline.timeline.trackEnds audio.track
        · rw [if_pos hgap]
          dsimp only
          obtain ⟨emitted, later, hacc⟩ : ∃ emitted later,
              pipeline.accumulator.accept sameText placed.chunk = (.ok emitted, later) := by
            apply accumulator_accept_exists hpl.sound hpl.fits
            · intro held hheld
              rw [hpl.track] at hheld
              exact (hcov.pending audio.track held
                (Option.mem_toList.mpr hheld)).sound.count_pos
            · rw [hpl.track]
              exact hcare
          rw [hacc]
          exact ⟨_, _, rfl⟩
        · rw [if_neg hgap]
          simp only [RecordingChunkAccumulator.flush]
          have hnone : (pipeline.accumulator.setPending audio.track none).pendingByTrack
              audio.track = none := Function.update_self ..
          obtain ⟨emitted, later, hacc⟩ : ∃ emitted later,
              (pipeline.accumulator.setPending audio.track none).accept sameText
                placed.chunk = (.ok emitted, later) := by
            apply accumulator_accept_exists hpl.sound hpl.fits
            · rw [hpl.track, hnone]
              intro held hheld
              cases hheld
            · rw [hpl.track, hnone]
              -- a gap keeps the held back chunk from merging
              cases hpend : pipeline.accumulator.pendingByTrack audio.track with
              | none =>
                rw [hpend] at hcare
                exact hcare
              | some held =>
                have hend := hcov.held_end hpend
                rw [hpend, toCut] at hcare
                rw [if_neg] at hcare
                · exact hcare
                · intro hmerge
                  obtain ⟨-, hnext, -⟩ := canMerge_spec hmerge
                  exact hgap (hnext.symm.trans hend)
          rw [hacc]
          exact ⟨_, _, rfl⟩
    obtain ⟨events, later, hrun⟩ := hprocess
    refine ⟨events, later, hrun, ?_⟩
    obtain ⟨found, hf, hcont⟩ := processChunk_ok hcov hrun
    rw [haccepted] at hf
    cases hf
    simp only [acceptedOf, haccepted]
    exact hcont
  | droppedInterval interval reason =>
    obtain ⟨gaps, hgaps⟩ := isOk_iff.mp (Bool.not_eq_eq_eq_not.mp hplaced)
    have hrun := processDropped_eq hgaps
    have hsilent : Silent [] := by
      intro event hev
      cases hev
    have hcont := processDropped_ok hcov hsilent hrun
    rw [List.append_nil] at hcont
    exact ⟨_, _, hrun, hcont⟩
  | failure interval reason failure =>
    obtain ⟨gaps, hgaps⟩ := isOk_iff.mp (Bool.not_eq_eq_eq_not.mp hplaced)
    have hrun := processDropped_eq hgaps
    have hsilent : Silent [RecordingCaptureEvent.failure failure] := by
      intro event hev
      rw [List.mem_singleton.mp hev]
      exact ⟨fun _ => RecordingCaptureEvent.noConfusion,
        fun _ => RecordingCaptureEvent.noConfusion⟩
    refine ⟨_, _, ?_, processDropped_ok hcov hsilent hrun⟩
    rw [RecordingCapturePipeline.process, hrun]
    rfl

theorem process_refused (hcare : careful sameText pipeline kind = true)
    (href : refused pipeline kind = true) :
    ∃ error later, pipeline.process sameText kind = (.error error, later) ∧
      later.timeline.trackEnds = pipeline.timeline.trackEnds ∧
      later.accumulator.pendingByTrack = pipeline.accumulator.pendingByTrack ∧
      acceptedOf pipeline kind = [] := by
  have hdrop : ∀ {interval : RecordingDroppedSourceInterval} {reason : RecordingGapReason},
      (!(pipeline.timeline.acceptDropped interval reason).1.isOk) = true →
      ((pipeline.timeline.acceptDropped interval reason).1.isOk ||
        (pipeline.accumulator.pendingByTrack interval.track).isNone) = true →
      ∃ error, (pipeline.processDropped interval reason).1 = .error error ∧
        (pipeline.processDropped interval reason).2.timeline.trackEnds =
          pipeline.timeline.trackEnds ∧
        (pipeline.processDropped interval reason).2.accumulator.pendingByTrack =
          pipeline.accumulator.pendingByTrack := by
    intro interval reason hnot hnone
    rw [Bool.not_eq_true'] at hnot
    rw [hnot, Bool.false_or, Option.isNone_iff_eq_none] at hnone
    obtain ⟨error, herr⟩ := not_isOk_iff.mp hnot
    exact ⟨error, processDropped_refused herr hnone⟩
  cases kind with
  | chunk audio level =>
    rw [refused, Bool.not_eq_true'] at href
    obtain ⟨error, herr⟩ := not_isOk_iff.mp href
    obtain ⟨hthrown, hends, hheld⟩ :
        (pipeline.processChunk sameText audio level).1 = .error error ∧
          (pipeline.processChunk sameText audio level).2.timeline.trackEnds =
            pipeline.timeline.trackEnds ∧
          (pipeline.processChunk sameText audio level).2.accumulator = pipeline.accumulator :=
      processChunk_refused herr
    refine ⟨error, _, Prod.ext hthrown rfl, hends, by rw [RecordingCapturePipeline.process, hheld],
      ?_⟩
    rw [acceptedOf, herr]
  | droppedInterval interval reason =>
    obtain ⟨error, hthrown, hends, hheld⟩ := hdrop href hcare
    exact ⟨error, _, Prod.ext hthrown rfl, hends, hheld, rfl⟩
  | failure interval reason failure =>
    obtain ⟨error, hthrown, hends, hheld⟩ := hdrop href hcare
    refine ⟨error, (pipeline.processDropped interval reason).2, ?_, hends, hheld, rfl⟩
    rw [RecordingCapturePipeline.process]
    exact Prod.ext (congrArg (Except.map _) hthrown) rfl

theorem process_still (hplaced : refused pipeline kind = false)
    (hstill : moves pipeline kind = false) :
    (pipeline.process sameText kind).2.timeline.trackEnds = pipeline.timeline.trackEnds ∧
      (pipeline.process sameText kind).2.accumulator.pendingByTrack =
        pipeline.accumulator.pendingByTrack ∧ acceptedOf pipeline kind = [] := by
  have hdrop : ∀ {interval : RecordingDroppedSourceInterval} {reason : RecordingGapReason},
      (!(pipeline.timeline.acceptDropped interval reason).1.isOk) = false →
      ((pipeline.accumulator.pendingByTrack interval.track).isSome ||
        (pipeline.timeline.acceptDropped interval reason).2.trackEnds interval.track !=
          pipeline.timeline.trackEnds interval.track) = false →
      (pipeline.processDropped interval reason).2.timeline.trackEnds =
          pipeline.timeline.trackEnds ∧
        (pipeline.processDropped interval reason).2.accumulator.pendingByTrack =
          pipeline.accumulator.pendingByTrack := by
    intro interval reason hok hmoves
    obtain ⟨gaps, hgaps⟩ := isOk_iff.mp (Bool.not_eq_eq_eq_not.mp hok)
    rw [Bool.or_eq_false_iff, bne_eq_false_iff_eq, Option.isSome_eq_false_iff,
      Option.isNone_iff_eq_none] at hmoves
    obtain ⟨hnone, hcursor⟩ := hmoves
    obtain ⟨cursor, -, -, -, hends⟩ := acceptDropped_ok (Prod.ext hgaps rfl)
    constructor
    · show (pipeline.timeline.acceptDropped interval reason).2.trackEnds = _
      rw [hends, Function.update_self] at hcursor
      rw [hends, hcursor, Function.update_eq_self]
    · show Function.update pipeline.accumulator.pendingByTrack interval.track none = _
      rw [← hnone, Function.update_eq_self]
  cases kind with
  | chunk audio level => cases hstill
  | droppedInterval interval reason =>
    obtain ⟨hends, hheld⟩ := hdrop hplaced hstill
    exact ⟨hends, hheld, rfl⟩
  | failure interval reason failure =>
    obtain ⟨hends, hheld⟩ := hdrop hplaced hstill
    exact ⟨hends, hheld, rfl⟩

theorem replay_allPlaced (hcov : Covers pipeline delivered accepted)
    (hfull : lossless sameText pipeline kinds = true)
    (hplaced : allPlaced sameText pipeline kinds = true) :
    ∃ events later, pipeline.replay sameText kinds = (.ok events, later) := by
  induction kinds generalizing pipeline delivered accepted with
  | nil => exact ⟨[], pipeline, rfl⟩
  | cons kind rest ih =>
    rw [allPlaced, Bool.and_eq_true, Bool.not_eq_true'] at hplaced
    rw [lossless, Bool.and_eq_true, hplaced.1, Bool.false_or, Bool.and_eq_true] at hfull
    obtain ⟨events, later, hrun, hnext⟩ := process_ok hcov hfull.1 hplaced.1
    rw [hrun] at hplaced hfull
    obtain ⟨more, final, hrest⟩ := ih (hcov.continues hnext) hfull.2.1 hplaced.2
    exact ⟨events ++ more, final, by
      rw [RecordingCapturePipeline.replay, hrun]
      dsimp only
      rw [hrest]
      rfl⟩

theorem replay_covers (hcov : Covers pipeline delivered accepted)
    (hfull : lossless sameText pipeline kinds = true)
    {out : Except CaptureError (List RecordingCaptureEvent)}
    (h : pipeline.replay sameText kinds = (out, later)) :
    Covers later (delivered ++ eventsOf out) (accepted ++ acceptedIn sameText pipeline kinds) := by
  induction kinds generalizing pipeline delivered accepted out later with
  | nil =>
    cases h
    rw [eventsOf, acceptedIn, List.append_nil, List.append_nil]
    exact hcov
  | cons kind rest ih =>
    rw [lossless, Bool.and_eq_true] at hfull
    obtain ⟨hcare, hrest⟩ := hfull
    rw [acceptedIn]
    rw [RecordingCapturePipeline.replay] at h
    by_cases href : refused pipeline kind = true
    · obtain ⟨error, after, hrun, hends, hheld, hnone⟩ := process_refused hcare href
      rw [hrun] at h ⊢
      cases h
      rw [hnone, eventsOf, List.append_nil, List.append_nil, List.append_nil]
      exact hcov.congr hends hheld
    · rw [Bool.not_eq_true] at href
      obtain ⟨events, middle, hrun, hnext⟩ := process_ok hcov hcare href
      rw [href, Bool.false_or, Bool.and_eq_true, hrun] at hrest
      obtain ⟨hfull, hplaced⟩ := hrest
      have hstill : moves pipeline kind = false →
          (pipeline.process sameText kind).2.timeline.trackEnds = pipeline.timeline.trackEnds ∧
            (pipeline.process sameText kind).2.accumulator.pendingByTrack =
              pipeline.accumulator.pendingByTrack ∧ acceptedOf pipeline kind = [] :=
        process_still href
      rw [hrun] at h hstill ⊢
      dsimp only at h hplaced hfull hstill ⊢
      cases htail : middle.replay sameText rest with
      | mk result final =>
        rw [htail] at h
        cases h
        cases result with
        | ok more =>
          have htot := ih (hcov.continues hnext) hfull htail
          rw [List.append_assoc, List.append_assoc] at htot
          exact htot
        | error error =>
          -- a later input throws, so this one moved nothing
          have hsame : moves pipeline kind = false := by
            by_contra hmoves
            rw [Bool.not_eq_false] at hmoves
            rw [hmoves, Bool.not_true, Bool.false_or] at hplaced
            obtain ⟨more, last, hmore⟩ :=
              replay_allPlaced (hcov.continues hnext) hfull hplaced
            rw [hmore] at htail
            cases htail
          obtain ⟨hends, hheld, hnone⟩ := hstill hsame
          have htot := ih (hcov.congr hends hheld) hfull htail
          rw [hnone, List.nil_append]
          exact htot

end Lossless

end TamForge.Capture
