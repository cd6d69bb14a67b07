import TamForge.Capture.Proofs.Coverage

/-!
# Capture sessions

A session is a pipeline with everything that its calls delivered and everything
that its timeline accepted.  Finishing a session whose startup succeeded leaves
nothing behind, as long as none of its calls lost something.
-/

namespace TamForge.Capture

open ProofSupport ProofSupport.Span

structure Session where
  pipeline : RecordingCapturePipeline
  delivered : List RecordingCaptureEvent
  accepted : List RecordingPCMChunk

namespace Session

def fresh : Session :=
  ⟨.fresh, [], []⟩

def next (sameText : String → String → Bool) (session : Session) (request : Call) : Session where
  pipeline := (call sameText session.pipeline request).2
  delivered := session.delivered ++ eventsOf (call sameText session.pipeline request).1
  accepted := session.accepted ++ acceptedDuring sameText session.pipeline request

end Session

inductive Step (sameText : String → String → Bool) : Session → Call → Session → Prop
  | called (session : Session) (request : Call)
      (returns : (call sameText session.pipeline request).1 ≠ .error .trap) :
      Step sameText session request (session.next sameText request)

/-- Both tracks arrived and the gate is open. -/
def started (pipeline : RecordingCapturePipeline) : Bool :=
  !pipeline.startupFailed && pipeline.startupInputs.isNone

variable {sameText : String → String → Bool} {pipeline : RecordingCapturePipeline}
  {delivered : List RecordingCaptureEvent} {accepted : List RecordingPCMChunk} {request : Call}

theorem covers_fresh : Covers .fresh [] [] := by
  constructor
  · exact fun _ => rfl
  · exact fun _ => rfl
  · intro chunk hchunk
    cases hchunk
  · intro track chunk hchunk
    cases hchunk

theorem Covers.silent {evs : List RecordingCaptureEvent}
    (h : Covers pipeline delivered accepted) (hsilent : Silent evs) :
    Covers pipeline (delivered ++ evs) accepted := by
  constructor
  · intro track
    rw [spansOn_append, hsilent.spansOn, List.append_nil]
    exact h.swept track
  · intro track
    rw [payloadOn_append, hsilent.payloadOn, List.append_nil]
    exact h.payload track
  · intro chunk hchunk
    rcases List.mem_append.mp hchunk with hold | hnew
    · exact h.recordable chunk hold
    · exact absurd rfl ((hsilent _ hnew).1 chunk)
  · exact h.pending

theorem silent_nil : Silent [] := by
  intro event hev
  cases hev

theorem silent_failure : Silent [.failure .requiredTracksMissing] := by
  intro event hev
  rw [List.mem_singleton.mp hev]
  exact ⟨fun _ => RecordingCaptureEvent.noConfusion, fun _ => RecordingCaptureEvent.noConfusion⟩

/-- The gate touches neither the timeline nor the accumulator, and what it
answers by itself carries no audio. -/
theorem gate_spec (kind : StartupInputKind) :
    (pipeline.gate kind).2.timeline = pipeline.timeline ∧
      (pipeline.gate kind).2.accumulator = pipeline.accumulator ∧
      ∀ events, (pipeline.gate kind).1 = .closed events → Silent events := by
  unfold RecordingCapturePipeline.gate
  split
  · refine ⟨rfl, rfl, ?_⟩
    rintro events ⟨⟩
    exact silent_nil
  · split
    · refine ⟨rfl, rfl, ?_⟩
      rintro events ⟨⟩
    · dsimp only
      split
      · refine ⟨rfl, rfl, ?_⟩
        rintro events ⟨⟩
        exact silent_failure
      · split
        · refine ⟨rfl, rfl, ?_⟩
          rintro events ⟨⟩
          exact silent_nil
        · refine ⟨rfl, rfl, ?_⟩
          rintro events ⟨⟩

theorem finish_perm (accumulator : RecordingChunkAccumulator) :
    accumulator.finish.1.Perm
      ([.microphone, .systemAudio].filterMap accumulator.pendingByTrack) :=
  List.perm_insertionSort _ _

theorem mem_finish {accumulator : RecordingChunkAccumulator} {chunk : RecordingPCMChunk}
    (h : chunk ∈ accumulator.finish.1) :
    ∃ track, accumulator.pendingByTrack track = some chunk := by
  obtain ⟨track, -, htrack⟩ := List.mem_filterMap.mp ((finish_perm accumulator).mem_iff.mp h)
  exact ⟨track, htrack⟩

theorem finish_on (hcov : Covers pipeline delivered accepted) (track : RecordingTrackKind) :
    spansOn track (pipeline.accumulator.finish.1.map .chunk) = spans (pipeline.heldBack track) ∧
      payloadOn track (pipeline.accumulator.finish.1.map .chunk) =
        payloads (pipeline.heldBack track) := by
  have htrack : ∀ other held, pipeline.accumulator.pendingByTrack other = some held →
      held.track = other := fun other held hheld =>
    (hcov.pending other held (by
      rw [RecordingCapturePipeline.heldBack, hheld]
      exact List.mem_singleton_self held)).track_eq
  -- the chunks of the track, whatever order both tracks are in
  have hfilt : pipeline.accumulator.finish.1.filter (fun chunk => chunk.track = track) =
      pipeline.heldBack track := by
    have hmicTrack := htrack .microphone
    have hsysTrack := htrack .systemAudio
    clear htrack
    have hone : ([.microphone, .systemAudio].filterMap
        pipeline.accumulator.pendingByTrack).filter (fun chunk => chunk.track = track) =
          pipeline.heldBack track := by
      rw [RecordingCapturePipeline.heldBack]
      cases hmic : pipeline.accumulator.pendingByTrack .microphone <;>
        cases hsys : pipeline.accumulator.pendingByTrack .systemAudio <;>
        cases track <;>
        simp_all
    have hperm := (finish_perm pipeline.accumulator).filter fun chunk => chunk.track = track
    rw [hone, RecordingCapturePipeline.heldBack] at hperm
    rw [RecordingCapturePipeline.heldBack]
    cases hpend : pipeline.accumulator.pendingByTrack track with
    | none =>
      rw [hpend] at hperm
      exact hperm.eq_nil
    | some held =>
      rw [hpend] at hperm
      exact List.perm_singleton.mp hperm
  have hchunks : ∀ chunks : List RecordingPCMChunk,
      (chunks.map RecordingCaptureEvent.chunk).filterMap (chunkOn track) =
          chunks.filter (fun chunk => chunk.track = track) ∧
        (chunks.map RecordingCaptureEvent.chunk).filterMap (spanOn track) =
          spans (chunks.filter (fun chunk => chunk.track = track)) := by
    intro chunks
    induction chunks with
    | nil => exact ⟨rfl, rfl⟩
    | cons chunk rest ih =>
      by_cases hsame : chunk.track = track
      · simp [chunkOn, spanOn, hsame, ih.1, ih.2, spans]
      · simp [chunkOn, spanOn, hsame, ih.1, ih.2]
  constructor
  · rw [spansOn, (hchunks _).2, hfilt]
  · rw [payloadOn, (hchunks _).1, hfilt]

theorem finish_covers (hcov : Covers pipeline delivered accepted) :
    Covers pipeline.finish.2 (delivered ++ pipeline.finish.1) accepted := by
  unfold RecordingCapturePipeline.finish
  split
  · exact hcov.silent silent_nil
  · split
    · exact (hcov.silent silent_failure).congr rfl rfl
    · constructor
      · intro track
        rw [spansOn_append, (finish_on hcov track).1]
        exact (List.append_nil _).symm ▸ hcov.swept track
      · intro track
        rw [payloadOn_append, (finish_on hcov track).2]
        exact (List.append_nil _).trans (hcov.payload track)
      · intro chunk hchunk
        rcases List.mem_append.mp hchunk with hold | hnew
        · exact hcov.recordable chunk hold
        · obtain ⟨held, hheld, heq⟩ := List.mem_map.mp hnew
          cases heq
          obtain ⟨track, htrack⟩ := mem_finish hheld
          have hpend := hcov.pending track chunk (by
            rw [RecordingCapturePipeline.heldBack, htrack]
            exact List.mem_singleton_self chunk)
          exact ⟨hpend.sound.count_pos, hpend.short.le⟩
      · intro track chunk hchunk
        cases hchunk

/-- A call without loss keeps account of its audio. -/
theorem next_covers {sess : Session}
    (hcov : Covers sess.pipeline sess.delivered sess.accepted)
    (hfull : losslessCall sameText sess.pipeline request = true) :
    Covers (sess.next sameText request).pipeline (sess.next sameText request).delivered
      (sess.next sameText request).accepted := by
  unfold Session.next
  simp only [losslessCall] at hfull
  simp only [call, acceptedDuring]
  cases hinput : request.input with
  | error error =>
    simp only [eventsOf, List.append_nil]
    exact hcov
  | ok input =>
    cases input with
    | none =>
      simp only [eventsOf, List.append_nil]
      exact finish_covers hcov
    | some kind =>
      rw [hinput] at hfull
      dsimp only at hfull ⊢
      obtain ⟨htime, haccumulator, hsilent⟩ :
          (sess.pipeline.gate kind).2.timeline = sess.pipeline.timeline ∧
            (sess.pipeline.gate kind).2.accumulator = sess.pipeline.accumulator ∧
            ∀ events, (sess.pipeline.gate kind).1 = .closed events → Silent events :=
        gate_spec kind
      rw [RecordingCapturePipeline.gated]
      cases hgate : sess.pipeline.gate kind with
      | mk decision behind =>
        rw [hgate] at hfull htime haccumulator hsilent
        have hbehind : Covers behind sess.delivered sess.accepted :=
          hcov.congr (congrArg _ htime) (congrArg _ haccumulator)
        cases decision with
        | closed events =>
          simp only [eventsOf, List.append_nil]
          exact hbehind.silent (hsilent events rfl)
        | opened kinds => exact replay_covers hbehind hfull rfl

/-- Finishing a session whose startup succeeded, none of whose calls lost
something: the delivered chunks and gaps of a track follow each other from
sample zero to its cursor, so they tile that range, the delivered bytes are
those of the accepted chunks, and every chunk is a record of at most a second. -/
theorem capture_complete {final : Session} {trace : List (Transition Session Call)}
    (hrun : Run (Step sameText) .fresh trace final)
    (hlossless : ∀ step ∈ trace, losslessCall sameText step.before.pipeline step.label = true)
    (hstarted : started final.pipeline = true) (track : RecordingTrackKind) :
    let finished := final.next sameText .finish
    sweep 0 (spansOn track finished.delivered) =
        some (finished.pipeline.timeline.trackEnds track) ∧
      Tiles (spansOn track finished.delivered) (finished.pipeline.timeline.trackEnds track) ∧
      payloadOn track finished.delivered = acceptedPayload track finished.accepted ∧
      ∀ chunk, RecordingCaptureEvent.chunk chunk ∈ finished.delivered → Recordable chunk := by
  have hcovers : Covers final.pipeline final.delivered final.accepted := by
    have hall := hrun.invariant
      (I := fun trace session => (∀ step ∈ trace,
          losslessCall sameText step.before.pipeline step.label = true) →
        Covers session.pipeline session.delivered session.accepted)
      (fun _ => covers_fresh) (by
        intro trace session request next hcovers hstep hsteps
        cases hstep with
        | called returns =>
          exact next_covers (hcovers fun step hstep => hsteps step (List.mem_append_left _ hstep))
            (hsteps _ (List.mem_append_right _ (List.mem_singleton_self _))))
    exact hall hlossless
  have hfinished : Covers (final.next sameText .finish).pipeline
      (final.next sameText .finish).delivered (final.next sameText .finish).accepted :=
    next_covers hcovers rfl
  rw [started, Bool.and_eq_true, Bool.not_eq_true', Option.isNone_iff_eq_none] at hstarted
  have hempty : (final.next sameText .finish).pipeline.heldBack track = [] := by
    show (final.pipeline.finish.2).heldBack track = []
    simp only [RecordingCapturePipeline.finish, hstarted.1, hstarted.2, Option.isSome_none]
    rfl
  have hswept := hfinished.swept track
  have hpayload := hfinished.payload track
  rw [hempty, spans_nil, List.append_nil] at hswept
  rw [hempty, payloads_nil, List.append_nil] at hpayload
  exact ⟨hswept, tiles_of_sweep hswept, hpayload, hfinished.recordable⟩

/-! ## A session with both tracks -/

def sampleChunk (track : RecordingTrackKind) (presentation : Int) (payload : List UInt8) :
    RecordingPCMChunk where
  track := track
  presentationNanoseconds := presentation
  sampleStart := 0
  sampleCount := 1
  format := match track with
    | .microphone => ⟨1, one_channel⟩
    | .systemAudio => ⟨2, Or.inr rfl⟩
  source := {
    sampleRate := .finite 48000, channelCount := 1, deviceID := "built-in",
    initialRoute := "speaker", conversionVersion := 1, presentationNanoseconds := presentation }
  payload := payload

/-- Both tracks start at the same time. -/
def sampleCalls : List Call :=
  [.accept (sampleChunk .microphone 1000000000 [1, 2]) (.finite 0),
    .accept (sampleChunk .systemAudio 1000000000 [3, 4, 5, 6]) (.finite 0)]

def sessionAfter (sameText : String → String → Bool) : Session → List Call → Session
  | session, [] => session
  | session, request :: rest => sessionAfter sameText (session.next sameText request) rest

def sessionTrace (sameText : String → String → Bool) :
    Session → List Call → List (Transition Session Call)
  | _, [] => []
  | session, request :: rest =>
    ⟨session, request, session.next sameText request⟩ ::
      sessionTrace sameText (session.next sameText request) rest

theorem run_calls (sess : Session) (requests : List Call)
    (h : ∀ step ∈ sessionTrace sameText sess requests,
      (call sameText step.before.pipeline step.label).1 ≠ .error .trap) :
    Run (Step sameText) sess (sessionTrace sameText sess requests)
      (sessionAfter sameText sess requests) := by
  induction requests generalizing sess with
  | nil => exact Run.refl
  | cons request rest ih =>
    have hfst := Step.called sess request (h _ (List.mem_cons_self ..))
    exact (Run.single hfst).append
      (ih _ fun step hstep => h step (List.mem_cons_of_mem _ hstep))

/-- Equality of texts, for texts without composed characters. -/
def sameAscii (left right : String) : Bool := left == right

def sampleSession : Session := sessionAfter sameAscii .fresh sampleCalls

theorem run_sampleCalls :
    Run (Step sameAscii) .fresh (sessionTrace sameAscii .fresh sampleCalls) sampleSession :=
  run_calls .fresh sampleCalls (by decide)

theorem capture_complete_sample :
    let finished := sampleSession.next sameAscii .finish
    sweep 0 (spansOn .microphone finished.delivered) =
        some (finished.pipeline.timeline.trackEnds .microphone) ∧
      Tiles (spansOn .microphone finished.delivered)
        (finished.pipeline.timeline.trackEnds .microphone) ∧
      payloadOn .microphone finished.delivered = acceptedPayload .microphone finished.accepted ∧
      ∀ chunk, RecordingCaptureEvent.chunk chunk ∈ finished.delivered → Recordable chunk :=
  capture_complete run_sampleCalls (by decide +kernel) (by decide +kernel) .microphone

/-- A microphone interval from before the origin is refused after the held back
microphone chunk was taken for it: the chunk is never delivered, although the
timeline accepted it. -/
theorem capture_loses_chunk :
    let requests := sampleCalls ++ [.acceptDroppedSourceInterval
      ⟨.microphone, 0, 500000000⟩ .callbackOverflow]
    let session := sessionAfter sameAscii .fresh requests
    let finished := session.next sameAscii .finish
    Run (Step sameAscii) .fresh (sessionTrace sameAscii .fresh requests) session ∧
      started session.pipeline = true ∧
      finished.pipeline.timeline.trackEnds .microphone = 1 ∧
      acceptedPayload .microphone finished.accepted = [1, 2] ∧
      spansOn .microphone finished.delivered = [] ∧
      payloadOn .microphone finished.delivered = [] :=
  ⟨run_calls _ _ (by decide +kernel), by decide +kernel, by decide +kernel, by decide +kernel,
    by decide +kernel, by decide +kernel⟩

end TamForge.Capture
