import TamForge.ProofSupport.Timelines
import TamForge.Speech.Proofs.Interleavings
import TamForge.Speech.Schemas

/-!
# Speaker turns lose and reorder nothing

The pieces of a track are sorted already, and the sort keeps them in their order.
Each turn then merges a run of the sorted pieces, all of one speaker.
-/

namespace TamForge.Speech

open ProofSupport Models Notifications
open Speech.Schemas (TranscriptSubmitCommand response maxTurns)

variable {piece last turn : Turn} {stack turns list : List Turn}
  {group : List Turn} {groups : List (List Turn)} {speaker : Speaker}

/-! ## Turns of pieces -/

/-- A turn merges pieces of its speaker, from the earliest start to the latest
end. -/
structure Spans (turn : Turn) (group : List Turn) : Prop where
  nonempty : group ≠ []
  speaker : ∀ piece ∈ group, piece.speaker = turn.speaker
  text : turn.text = " ".intercalate (group.map Turn.text)
  startMs_le : ∀ piece ∈ group, turn.startMs ≤ piece.startMs
  startMs_mem : ∃ piece ∈ group, piece.startMs = turn.startMs
  le_endMs : ∀ piece ∈ group, piece.endMs ≤ turn.endMs
  endMs_mem : ∃ piece ∈ group, piece.endMs = turn.endMs

theorem Spans.single (piece : Turn) : Spans piece [piece] := by
  constructor <;> simp

theorem Spans.merge (h : Spans last group) (hspk : last.speaker = piece.speaker)
    (hstart : last.startMs ≤ piece.startMs) :
    Spans ⟨piece.speaker, last.startMs, max last.endMs piece.endMs,
      last.text ++ " " ++ piece.text⟩ (group ++ [piece]) := by
  constructor
  · simp
  · intro other ho
    rcases List.mem_append.mp ho with hgroup | hpiece
    · exact (h.speaker other hgroup).trans hspk
    · rw [List.mem_singleton.mp hpiece]
  · have hne : group.map Turn.text ≠ [] := by simpa using h.nonempty
    rw [List.map_append, String.intercalate_append_of_ne_nil hne (by simp), h.text]
    simp
  · intro other ho
    rcases List.mem_append.mp ho with hgroup | hpiece
    · exact h.startMs_le other hgroup
    · rw [List.mem_singleton.mp hpiece]
      exact hstart
  · obtain ⟨other, ho, heq⟩ := h.startMs_mem
    exact ⟨other, List.mem_append_left _ ho, heq⟩
  · intro other ho
    rcases List.mem_append.mp ho with hgroup | hpiece
    · exact (h.le_endMs other hgroup).trans (le_max_left ..)
    · rw [List.mem_singleton.mp hpiece]
      exact le_max_right ..
  · rcases le_total last.endMs piece.endMs with hle | hle
    · exact ⟨piece, by simp, (max_eq_right hle).symm⟩
    · obtain ⟨other, ho, heq⟩ := h.endMs_mem
      exact ⟨other, List.mem_append_left _ ho, heq.trans (max_eq_left hle).symm⟩

structure Merged (stack : List Turn) (groups : List (List Turn)) : Prop where
  spans : List.Forall₂ Spans stack groups
  ordered : stack.Pairwise fun later earlier => earlier.startMs ≤ later.startMs
  apart : stack.IsChain fun later earlier =>
    earlier.speaker = later.speaker → earlier.endMs + mergeGapMs < later.startMs

theorem addPiece_merge (earlier : List Turn)
    (h : last.speaker = piece.speaker ∧ piece.startMs ≤ last.endMs + mergeGapMs) :
    addPiece (last :: earlier) piece = ⟨piece.speaker, last.startMs, max last.endMs piece.endMs,
      last.text ++ " " ++ piece.text⟩ :: earlier := if_pos h

theorem addPiece_push (earlier : List Turn)
    (h : ¬ (last.speaker = piece.speaker ∧ piece.startMs ≤ last.endMs + mergeGapMs)) :
    addPiece (last :: earlier) piece = piece :: last :: earlier := if_neg h

theorem addPiece_merged (h : Merged stack groups)
    (hb : ∀ turn ∈ stack, turn.startMs ≤ piece.startMs) :
    (∀ turn ∈ addPiece stack piece, turn.startMs ≤ piece.startMs) ∧
      ∃ groups', Merged (addPiece stack piece) groups' ∧
        groups'.reverse.flatten = groups.reverse.flatten ++ [piece] := by
  cases stack with
  | nil =>
    cases h.spans
    exact ⟨by simp [addPiece], [[piece]], ⟨.cons (.single piece) .nil, List.pairwise_singleton _ _,
      List.isChain_singleton _⟩, rfl⟩
  | cons last earlier =>
    obtain ⟨group, others, hlast, hearl, rfl⟩ := List.forall₂_cons_left_iff.mp h.spans
    by_cases hmerge : last.speaker = piece.speaker ∧ piece.startMs ≤ last.endMs + mergeGapMs
    · rw [addPiece_merge earlier hmerge]
      refine ⟨?_, (group ++ [piece]) :: others, ⟨?_, ?_, ?_⟩, by simp⟩
      · simpa using hb
      · exact .cons (hlast.merge hmerge.1 (hb last (by simp))) hearl
      · exact List.pairwise_cons.mpr (List.pairwise_cons.mp h.ordered)
      · have hapart := h.apart
        cases earlier with
        | nil => simp
        | cons second rest =>
          rw [List.isChain_cons_cons] at hapart ⊢
          rw [← hmerge.1]
          exact hapart
    · rw [addPiece_push earlier hmerge]
      refine ⟨?_, [piece] :: group :: others, ⟨?_, ?_, ?_⟩, by simp⟩
      · simpa using hb
      · exact .cons (.single piece) (.cons hlast hearl)
      · exact List.pairwise_cons.mpr ⟨hb, h.ordered⟩
      · refine List.isChain_cons_cons.mpr ⟨?_, h.apart⟩
        intro hspk
        by_contra hnear
        exact hmerge ⟨hspk, by omega⟩

theorem foldl_addPiece_merged (h : Merged stack groups)
    (hb : ∀ turn ∈ stack, ∀ piece ∈ list, turn.startMs ≤ piece.startMs)
    (hsort : list.Pairwise fun first second => first.startMs ≤ second.startMs) :
    ∃ groups', Merged (list.foldl addPiece stack) groups' ∧
      groups'.reverse.flatten = groups.reverse.flatten ++ list := by
  induction list generalizing stack groups with
  | nil => exact ⟨groups, h, (List.append_nil _).symm⟩
  | cons piece rest ih =>
    obtain ⟨hstarts, next, hnext, hflatten⟩ :=
      addPiece_merged h fun turn hturn => hb turn hturn piece (by simp)
    obtain ⟨final, hfinal, hall⟩ := ih hnext
      (fun turn hturn other ho =>
        (hstarts turn hturn).trans (List.rel_of_pairwise_cons hsort ho))
      (List.Pairwise.of_cons hsort)
    rw [hflatten, List.append_assoc] at hall
    exact ⟨final, hfinal, hall⟩

theorem length_addPiece_le (stack : List Turn) (piece : Turn) :
    (addPiece stack piece).length ≤ stack.length + 1 := by
  cases stack with
  | nil => rfl
  | cons last earlier =>
    by_cases hmerge : last.speaker = piece.speaker ∧ piece.startMs ≤ last.endMs + mergeGapMs <;>
      simp [addPiece, hmerge]

theorem length_foldl_addPiece_le (list stack : List Turn) :
    (list.foldl addPiece stack).length ≤ stack.length + list.length := by
  induction list generalizing stack with
  | nil => simp
  | cons piece rest ih =>
    have hpiece := length_addPiece_le stack piece
    have hrest := ih (addPiece stack piece)
    simp only [List.foldl_cons, List.length_cons]
    omega

theorem Spans.span (h : Spans turn group)
    (hspan : ∀ piece ∈ group, piece.startMs ≤ piece.endMs) : turn.startMs ≤ turn.endMs := by
  obtain ⟨piece, hpiece, hstart⟩ := h.startMs_mem
  calc turn.startMs = piece.startMs := hstart.symm
    _ ≤ piece.endMs := hspan piece hpiece
    _ ≤ turn.endMs := h.le_endMs piece hpiece

theorem turns_span (h : List.Forall₂ Spans turns groups)
    (hspan : ∀ piece ∈ groups.flatten, piece.startMs ≤ piece.endMs) :
    ∀ turn ∈ turns, turn.startMs ≤ turn.endMs := by
  induction h with
  | nil => simp
  | @cons turn group turns groups hturn _ ih =>
    rw [List.forall_mem_cons]
    refine ⟨hturn.span fun piece hpiece => hspan piece ?_, ih fun piece hpiece => hspan piece ?_⟩
    · exact List.mem_append_left _ hpiece
    · exact List.mem_append_right _ hpiece

def textsOf (speaker : Speaker) (turns : List Turn) : List String :=
  (turns.filter fun turn => turn.speaker = speaker).map Turn.text

theorem intercalate_join (front list rest : List String) (h : list ≠ []) :
    " ".intercalate (front ++ " ".intercalate list :: rest) =
      " ".intercalate (front ++ (list ++ rest)) := by
  have hcons : " ".intercalate (" ".intercalate list :: rest) = " ".intercalate (list ++ rest) := by
    cases rest with
    | nil => simp
    | cons text others =>
      rw [String.intercalate_append_of_ne_nil h (by simp), String.intercalate_cons_cons]
  by_cases hfront : front = []
  · rw [hfront, List.nil_append, List.nil_append, hcons]
  · rw [String.intercalate_append_of_ne_nil hfront (by simp),
      String.intercalate_append_of_ne_nil hfront (by simp [h]), hcons]

theorem intercalate_textsOf (speaker : Speaker) (h : List.Forall₂ Spans turns groups)
    (front : List String) :
    " ".intercalate (front ++ textsOf speaker turns) =
      " ".intercalate (front ++ textsOf speaker groups.flatten) := by
  induction h generalizing front with
  | nil => rfl
  | @cons turn group turns groups hturn _ ih =>
    unfold textsOf at ih ⊢
    rw [List.flatten_cons, List.filter_append, List.map_append]
    by_cases hspk : turn.speaker = speaker
    · have hgroup : (group.filter fun piece => piece.speaker = speaker) = group := by
        rw [List.filter_eq_self]
        intro piece hpiece
        simp [hturn.speaker piece hpiece, hspk]
      have hne : group.map Turn.text ≠ [] := by simpa using hturn.nonempty
      rw [List.filter_cons_of_pos (by simpa using hspk), List.map_cons, hgroup, hturn.text,
        intercalate_join _ _ _ hne, ← List.append_assoc, ← List.append_assoc]
      exact ih _
    · have hgroup : (group.filter fun piece => piece.speaker = speaker) = [] := by
        rw [List.filter_eq_nil_iff]
        intro piece hpiece
        simp [hturn.speaker piece hpiece, hspk]
      rw [List.filter_cons_of_neg (by simpa using hspk), hgroup, List.map_nil,
        List.nil_append]
      exact ih front

/-! ## Pieces of tracks -/

instance : IsTrans Turn startsBefore where
  trans first second third := by
    unfold startsBefore
    omega

instance : Std.Total startsBefore where
  total first second := by
    unfold startsBefore
    omega

theorem filter_insertionSort {α : Type} {r : α → α → Prop} [DecidableRel r] {p : α → Bool}
    {list : List α} (h : (list.filter p).Pairwise r) :
    (list.insertionSort r).filter p = list.filter p := by
  have hsubl : (list.filter p).Sublist (list.insertionSort r) :=
    List.sublist_insertionSort h List.filter_sublist
  have hfilt := hsubl.filter p
  simp only [List.filter_filter, Bool.and_self] at hfilt
  have hperm := (List.perm_insertionSort r list).filter p
  exact (hfilt.eq_of_length hperm.length_eq.symm).symm

theorem length_pieces_le (speaker : Speaker) (transcript : SpeechTranscript) :
    (pieces speaker transcript).length ≤ transcript.segments.length := by
  rw [pieces, List.length_map]
  exact List.length_filter_le ..

theorem filter_pieces (speaker track : Speaker) (transcript : SpeechTranscript) :
    ((pieces track transcript).filter fun piece => piece.speaker = speaker) =
      if track = speaker then pieces speaker transcript else [] := by
  unfold pieces
  rw [List.filter_map]
  split
  · rename_i hspk
    rw [List.filter_eq_self.mpr (by simp [hspk]), hspk]
  · rename_i hspk
    rw [List.filter_eq_nil_iff.mpr (by simp [hspk]), List.map_nil]

variable (command : TranscriptSubmitCommand) (id : Nat)

theorem stored_span : ∀ seg ∈ (command.stored id).segments,
    seg.startMs ≤ seg.endMs := by
  intro seg hseg
  obtain ⟨original, _, rfl⟩ := List.mem_map.mp hseg
  exact original.validate_span

theorem stored_chronological :
    Chronological TranscriptSegment.startMs TranscriptSegment.endMs
      (command.stored id).segments := by
  apply Chronological.of_isChain (stored_span command id)
  exact (List.isChain_map _).mpr command.segments_chronological

theorem pieces_sorted (speaker : Speaker) :
    (pieces speaker (command.stored id)).Pairwise startsBefore := by
  unfold pieces
  rw [List.pairwise_map]
  apply ((stored_chronological command id).sublist List.filter_sublist).imp_of_mem
  intro first second hfst hsec hle
  have hspan := stored_span command id first (List.mem_filter.mp hfst).1
  have hnext := stored_span command id second (List.mem_filter.mp hsec).1
  unfold startsBefore
  simp only
  omega

theorem pieces_span (speaker : Speaker) :
    ∀ piece ∈ pieces speaker (command.stored id), piece.startMs ≤ piece.endMs := by
  intro piece hpiece
  obtain ⟨seg, hseg, rfl⟩ := List.mem_map.mp hpiece
  exact stored_span command id seg (List.mem_filter.mp hseg).1

theorem length_pieces_stored_le (speaker : Speaker) :
    (pieces speaker (command.stored id)).length ≤ 4000 := by
  calc (pieces speaker (command.stored id)).length
      ≤ (command.stored id).segments.length := length_pieces_le ..
    _ = command.segments.length := List.length_map ..
    _ ≤ 4000 := command.segments_length

/-! ## Both tracks -/

def spokenPieces (microphone : SpeechTranscript) (systemAudio : Option SpeechTranscript) :
    List Turn :=
  pieces .learner microphone ++ (systemAudio.map (pieces .other)).getD []

def spokenTexts (transcript : SpeechTranscript) : List String :=
  (transcript.segments.filter fun segment => !isBlank segment.text).map fun segment =>
    strip segment.text

theorem map_text_pieces (speaker : Speaker) (transcript : SpeechTranscript) :
    (pieces speaker transcript).map Turn.text = spokenTexts transcript := by
  rw [pieces, List.map_map]
  rfl

structure Interleaves (microphone : SpeechTranscript) (systemAudio : Option SpeechTranscript)
    (turns : List Turn) : Prop where
  ordered : turns.Pairwise fun earlier later => earlier.startMs ≤ later.startMs
  span : ∀ turn ∈ turns, turn.startMs ≤ turn.endMs
  learner : " ".intercalate (textsOf .learner turns) = " ".intercalate (spokenTexts microphone)
  other : " ".intercalate (textsOf .other turns) =
    " ".intercalate ((systemAudio.map spokenTexts).getD [])
  merges : ∃ groups, List.Forall₂ Spans turns groups ∧
    groups.flatten.Perm (spokenPieces microphone systemAudio)
  apart : turns.IsChain fun earlier later =>
    earlier.speaker = later.speaker → earlier.endMs + 1500 < later.startMs
  length : turns.length ≤ 8000

theorem filter_spokenPieces (speaker : Speaker) (mic : SpeechTranscript)
    (systemAudio : Option SpeechTranscript) :
    ((spokenPieces mic systemAudio).filter fun piece => piece.speaker = speaker) =
      match speaker with
      | .learner => pieces .learner mic
      | .other => (systemAudio.map (pieces .other)).getD [] := by
  unfold spokenPieces
  rw [List.filter_append, filter_pieces]
  cases systemAudio <;> cases speaker <;> simp [filter_pieces]

variable (systemAudio : Option TranscriptSubmitCommand) (otherId : Nat)

theorem sorted_spokenPieces (speaker : Speaker) :
    ((spokenPieces (command.stored id)
      (systemAudio.map fun system => system.stored otherId)).filter
        fun piece => piece.speaker = speaker).Pairwise startsBefore := by
  rw [filter_spokenPieces]
  cases speaker with
  | learner => exact pieces_sorted command id .learner
  | other =>
    cases systemAudio with
    | none => exact List.Pairwise.nil
    | some system => exact pieces_sorted system otherId .other

theorem spokenPieces_span :
    ∀ piece ∈ spokenPieces (command.stored id)
      (systemAudio.map fun system => system.stored otherId), piece.startMs ≤ piece.endMs := by
  intro piece hpiece
  rcases List.mem_append.mp hpiece with hlrn | ho
  · exact pieces_span command id .learner piece hlrn
  · cases systemAudio with
    | none => cases ho
    | some system => exact pieces_span system otherId .other piece ho

theorem length_spokenPieces_le :
    (spokenPieces (command.stored id)
      (systemAudio.map fun system => system.stored otherId)).length ≤ 8000 := by
  have hlrn := length_pieces_stored_le command id .learner
  rw [spokenPieces, List.length_append]
  cases systemAudio with
  | none => simpa using hlrn.trans (by norm_num)
  | some system =>
    have ho := length_pieces_stored_le system otherId .other
    simp only [Option.map_some, Option.getD_some]
    omega

theorem interleaves_buildTurns :
    Interleaves (command.stored id) (systemAudio.map fun system => system.stored otherId)
      (buildTurns (command.stored id) (systemAudio.map fun system => system.stored otherId)) := by
  have hspan := spokenPieces_span command id systemAudio otherId
  have htracks := sorted_spokenPieces command id systemAudio otherId
  have hlen := length_spokenPieces_le command id systemAudio otherId
  generalize command.stored id = microphone at *
  generalize (systemAudio.map fun system => system.stored otherId) = system at *
  have hsort := List.pairwise_insertionSort startsBefore (spokenPieces microphone system)
  have hperm := List.perm_insertionSort startsBefore (spokenPieces microphone system)
  have hnil : Merged [] [] := ⟨.nil, .nil, .nil⟩
  obtain ⟨groups, hmerged, hflatten⟩ := foldl_addPiece_merged hnil (by simp)
    (hsort.imp fun h => h.elim le_of_lt fun heq => heq.1.le)
  have hturns : buildTurns microphone system = (((spokenPieces microphone system).insertionSort
      startsBefore).foldl addPiece []).reverse := rfl
  rw [List.reverse_nil, List.flatten_nil, List.nil_append] at hflatten
  have hspans := List.rel_reverse hmerged.spans
  rw [← hturns] at hspans
  have htexts : ∀ speaker, " ".intercalate (textsOf speaker (buildTurns microphone system)) =
      " ".intercalate (((spokenPieces microphone system).filter
        fun piece => piece.speaker = speaker).map Turn.text) := by
    intro speaker
    have hjoin := intercalate_textsOf speaker hspans []
    rw [List.nil_append, List.nil_append, hflatten] at hjoin
    rw [hjoin, textsOf, filter_insertionSort (htracks speaker)]
  constructor
  · rw [hturns, List.pairwise_reverse]
    exact hmerged.ordered
  · apply turns_span hspans
    intro piece hpiece
    rw [hflatten] at hpiece
    exact hspan piece (hperm.mem_iff.mp hpiece)
  · rw [htexts, filter_spokenPieces, map_text_pieces]
  · rw [htexts, filter_spokenPieces]
    cases system with
    | none => rfl
    | some system => rw [Option.map_some, Option.getD_some, map_text_pieces]; rfl
  · exact ⟨groups.reverse, hspans, hflatten ▸ hperm⟩
  · rw [hturns, List.isChain_reverse]
    exact hmerged.apart
  · calc (buildTurns microphone system).length
        ≤ ((spokenPieces microphone system).insertionSort startsBefore).length := by
          rw [hturns, List.length_reverse]
          simpa using length_foldl_addPiece_le
            ((spokenPieces microphone system).insertionSort startsBefore) []
      _ = (spokenPieces microphone system).length := hperm.length_eq
      _ ≤ 8000 := hlen

/-! ## Responses -/

variable {μ : Type} {analysis : SpeechAnalysis μ}

theorem response_isSome (h : analysis.turns.length ≤ maxTurns) (job : Option BackgroundJob) :
    (response (some analysis) job).isSome = true := by
  have hturns : (Schemas.responseTurns (some analysis)).length ≤ maxTurns := by
    rw [Schemas.responseTurns, List.length_map]
    exact h
  unfold response
  rw [dif_pos hturns]
  rfl

theorem mem_byTrack {rows : List SpeechTranscript} {track : Track} {row : SpeechTranscript}
    (h : byTrack rows track = some row) : row ∈ rows := by
  have hmem := (List.mem_filter.mp (List.mem_of_getLast? h)).1
  exact (List.mem_insertionSort _).mp hmem

theorem length_turns_le {metrics : SpeechMetrics μ} {rows : List SpeechTranscript}
    (hrows : ∀ row ∈ rows, ∃ command : TranscriptSubmitCommand, row = command.stored row.id)
    (h : computeAnalysis metrics rows = some analysis) : analysis.turns.length ≤ maxTurns := by
  obtain ⟨mic, hmic, -, -, hturns⟩ := computeAnalysis_some h
  obtain ⟨command, hcmd⟩ := hrows mic (mem_byTrack hmic)
  rw [hturns, hcmd]
  cases hsys : byTrack rows .systemAudio with
  | none => exact (interleaves_buildTurns command mic.id none 0).length
  | some row =>
    obtain ⟨other, ho⟩ := hrows row (mem_byTrack hsys)
    rw [ho]
    exact (interleaves_buildTurns command mic.id (some other) row.id).length

/-- The turns of two tracks keep what is said in them, and the response accepts
every analysis that is computed from stored commands. -/
theorem speaker_turns_kept (microphone : TranscriptSubmitCommand)
    (systemAudio : Option TranscriptSubmitCommand) (id otherId : Nat) :
    Interleaves (microphone.stored id) (systemAudio.map fun system => system.stored otherId)
        (buildTurns (microphone.stored id)
          (systemAudio.map fun system => system.stored otherId)) ∧
      ∀ (metrics : SpeechMetrics μ) (rows : List SpeechTranscript),
        (∀ row ∈ rows, ∃ command : TranscriptSubmitCommand, row = command.stored row.id) →
          ∀ analysis ∈ computeAnalysis metrics rows, ∀ job,
            (response (some analysis) job).isSome = true := by
  refine ⟨interleaves_buildTurns microphone id systemAudio otherId, ?_⟩
  intro metrics rows hrows analysis hanalysis job
  exact response_isSome (length_turns_le hrows hanalysis) job

/-- One segment of half a second. -/
def greeting : TranscriptSubmitCommand where
  track := .microphone
  segments := [⟨"hello", 0, 500, [], by unfold Schemas.BoundedText; decide, by decide, by decide,
    by decide, by decide, by decide, by decide⟩]
  segments_length := by decide
  segments_chronological := by decide
  words_length := by decide

theorem greeting_turns_kept :
    Interleaves (greeting.stored 1) none (buildTurns (greeting.stored 1) none) ∧
      ∀ job, (response (some ⟨1, none, buildTurns (greeting.stored 1) none, ()⟩) job).isSome =
        true := by
  obtain ⟨hturns, hresponses⟩ := @speaker_turns_kept Unit greeting none 1 2
  refine ⟨hturns, hresponses (fun _ _ => some ()) [greeting.stored 1] ?_ _ rfl⟩
  intro row hrow
  rw [List.mem_singleton.mp hrow]
  exact ⟨greeting, rfl⟩

end TamForge.Speech
