import Mathlib.Algebra.Order.BigOperators.Group.List
import Mathlib.Algebra.Order.Group.Nat
import Mathlib.Data.List.Chain
import TamForge.Transcripts.Payload

/-!
# Normalized transcripts satisfy the server

One pass puts every word into its segment, behind the word before.  What the
server requires of the segments holds of them already, so it accepts them.
-/

namespace TamForge.Transcripts.Payload

open ProofSupport Speech.Schemas
open Speech (Track)

variable {segmentStart segmentEnd previousEnd : Int} {words : List SpeechTranscribedWord}
  {segment : SpeechTranscribedSegment} {segments : List SpeechTranscribedSegment}

def spoken (words : List SpeechTranscribedWord) : List SpeechTranscribedWord :=
  words.filter fun word => !word.text.isEmpty

structure Transcribed (segment : SpeechTranscribedSegment) : Prop where
  text : BoundedText segment.text
  span : 0 ≤ segment.startMilliseconds ∧ segment.startMilliseconds ≤ segment.endMilliseconds ∧
    segment.endMilliseconds ≤ maxTranscriptMs
  words : ∀ word ∈ segment.words,
    word.text.length ≤ maxTextLength ∧ 0 ≤ word.probability ∧ word.probability ≤ 1

def ValidSpans (segmentStart segmentEnd : Int) (spans : List (Int × Int)) : Prop :=
  (∀ span ∈ spans, segmentStart ≤ span.1 ∧ span.1 ≤ span.2 ∧ span.2 ≤ segmentEnd) ∧
    spans.IsChain fun previous current => previous.2 ≤ current.1

theorem ValidSpans.cons {span : Int × Int} {spans : List (Int × Int)}
    (hspan : segmentStart ≤ span.1 ∧ span.1 ≤ span.2)
    (hend : span.2 ≤ segmentEnd) (h : ValidSpans span.2 segmentEnd spans) :
    ValidSpans segmentStart segmentEnd (span :: spans) := by
  refine ⟨?_, ?_⟩
  · rintro other (_ | ⟨_, ho⟩)
    · exact ⟨hspan.1, hspan.2, hend⟩
    · obtain ⟨hstart, hord, hlast⟩ := h.1 other ho
      exact ⟨by omega, hord, hlast⟩
  · cases spans with
    | nil => exact .singleton _
    | cons next rest => exact .cons_cons (h.1 next (by simp)).1 h.2

theorem ValidSpans.rest {span : Int × Int} {spans : List (Int × Int)}
    (h : ValidSpans segmentStart segmentEnd (span :: spans)) :
    ValidSpans span.2 segmentEnd spans := by
  induction spans generalizing span with
  | nil => exact ⟨nofun, .nil⟩
  | cons next rest ih =>
    obtain ⟨hlink, hchain⟩ := List.isChain_cons_cons.mp h.2
    obtain ⟨-, hord, hend⟩ := h.1 next (by simp)
    refine .cons ⟨hlink, hord⟩ hend (ih ⟨?_, hchain⟩)
    exact fun other ho => h.1 other (List.mem_cons_of_mem _ ho)

theorem normalizedFrom_valid (words : List SpeechTranscribedWord) (hstart : segmentStart ≤ previousEnd)
    (hend : previousEnd ≤ segmentEnd) :
    ValidSpans previousEnd segmentEnd ((normalizedFrom segmentStart segmentEnd previousEnd
      words).map fun word => (word.startMilliseconds, word.endMilliseconds)) := by
  induction words generalizing previousEnd with
  | nil => exact ⟨nofun, .nil⟩
  | cons word rest ih =>
    rw [normalizedFrom]
    split
    · exact ih hstart hend
    · simp only [List.map_cons]
      exact .cons ⟨by omega, by omega⟩ (by omega) (ih (by omega) (by omega))

theorem normalizedFrom_texts :
    (normalizedFrom segmentStart segmentEnd previousEnd words).map
        (fun word => (word.text, word.probability)) =
      (spoken words).map fun word => (word.text, word.probability) := by
  induction words generalizing previousEnd with
  | nil => rfl
  | cons word rest ih =>
    rw [normalizedFrom, spoken, List.filter_cons]
    by_cases hnil : word.text.isEmpty = true
    · rw [if_pos hnil, ih]
      simp [hnil, spoken]
    · rw [if_neg hnil, List.map_cons, ih]
      simp [hnil, spoken]

theorem normalizedFrom_unchanged (hval : ValidSpans previousEnd segmentEnd
      ((spoken words).map fun word => (word.startMilliseconds, word.endMilliseconds)))
    (hstart : segmentStart ≤ previousEnd) :
    normalizedFrom segmentStart segmentEnd previousEnd words =
      (spoken words).map fun word =>
        ⟨word.text, word.startMilliseconds, word.endMilliseconds, word.probability⟩ := by
  induction words generalizing previousEnd with
  | nil => rfl
  | cons word rest ih =>
    rw [spoken, List.filter_cons] at hval ⊢
    rw [normalizedFrom]
    by_cases hnil : word.text.isEmpty = true
    · simp only [hnil, Bool.not_true, Bool.false_eq_true, if_false, if_true] at hval ⊢
      exact ih hval hstart
    · simp only [hnil, Bool.not_false, if_true, Bool.false_eq_true, if_false,
        List.map_cons] at hval ⊢
      obtain ⟨hfst, hord, hlast⟩ := hval.1 _ (List.mem_cons_self ..)
      have hclamped : max (min (max segmentStart word.startMilliseconds) segmentEnd)
          previousEnd = word.startMilliseconds := by omega
      have hstop : max (max (min segmentEnd word.endMilliseconds) segmentStart)
          word.startMilliseconds = word.endMilliseconds := by omega
      rw [hclamped, hstop, ih hval.rest (by omega)]
      rfl

/-! ## What the server reads -/

theorem readWord_ok {word : TranscriptWordPayload} (htext : BoundedText word.text)
    (hprobability : 0 ≤ word.probability ∧ word.probability ≤ 1)
    (hspan : 0 ≤ word.startMilliseconds ∧ word.startMilliseconds ≤ word.endMilliseconds ∧
      word.endMilliseconds ≤ maxTranscriptMs) : ∃ read, readWord word = .ok read := by
  obtain ⟨hstart, hord, hend⟩ := hspan
  rw [readWord, dif_pos ⟨htext, ⟨hstart, by omega⟩, ⟨by omega, hend⟩, hprobability⟩,
    dif_pos hord]
  exact ⟨_, rfl⟩

theorem readWord_span (word : TranscriptWordPayload) (read : TranscriptWord)
    (h : readWord word = .ok read) :
    ((read.startMs : Int), (read.endMs : Int)) =
      (word.startMilliseconds, word.endMilliseconds) := by
  unfold readWord at h
  split at h
  · rename_i hfld
    split at h
    · cases h
      exact Prod.ext (Int.toNat_of_nonneg hfld.2.1.1) (Int.toNat_of_nonneg hfld.2.2.1.1)
    · cases h
  · cases h

theorem readSegment_span (payload : TranscriptSegmentPayload) (read : TranscriptSegment)
    (h : readSegment payload = .ok read) :
    ((read.startMs : Int), (read.endMs : Int), read.words.length) =
      (payload.startMilliseconds, payload.endMilliseconds, payload.words.length) := by
  obtain ⟨words, hloop, h⟩ := bind_ok_iff.mp h
  have hlen := congrArg List.length (mapM_ok_map hloop readWord_span)
  simp only [List.length_map] at hlen
  dsimp only at h
  split at h
  · rename_i hfld
    split at h
    · split at h
      · split at h
        · cases h
          simp [hlen, Int.toNat_of_nonneg hfld.2.1.1, Int.toNat_of_nonneg hfld.2.2.1.1]
        · cases h
      · cases h
    · cases h
  · cases h

theorem makeSegment_words (segment : SpeechTranscribedSegment) :
    (makeSegment segment).words.length = (spoken segment.words).length := by
  have htexts := congrArg List.length (@normalizedFrom_texts segment.startMilliseconds
    segment.endMilliseconds segment.startMilliseconds segment.words)
  rw [List.length_map, List.length_map] at htexts
  exact htexts

theorem readSegment_ok (h : Transcribed segment)
    (hwords : (spoken segment.words).length ≤ maxWordsPerTranscript) :
    ∃ read, readSegment (makeSegment segment) = .ok read := by
  obtain ⟨hstart, hord, hend⟩ := h.span
  have hvalid := normalizedFrom_valid segment.words (le_refl segment.startMilliseconds) hord
  have hread : ∀ word ∈ (makeSegment segment).words, ∃ read, readWord word = .ok read := by
    intro word hword
    have hkept : (word.text, word.probability) ∈
        (spoken segment.words).map fun word => (word.text, word.probability) := by
      rw [← normalizedFrom_texts]
      exact List.mem_map_of_mem hword
    obtain ⟨raw, hraw, hsame⟩ := List.mem_map.mp hkept
    obtain ⟨hmem, hne⟩ := List.mem_filter.mp hraw
    obtain ⟨hlen, hprobability⟩ := h.words raw hmem
    obtain ⟨htext, hval⟩ := Prod.mk.inj hsame
    obtain ⟨hfst, hspan, hlast⟩ := hvalid.1 _ (List.mem_map_of_mem hword)
    refine readWord_ok ⟨?_, htext ▸ hlen⟩ (hval ▸ hprobability) ⟨by omega, hspan, by omega⟩
    rw [← htext, Nat.one_le_iff_ne_zero]
    simpa using hne
  obtain ⟨words, hloop⟩ := exists_mapM_ok_iff.mpr hread
  have hsame := mapM_ok_map hloop readWord_span
  have hlen := congrArg List.length hsame
  rw [List.length_map, List.length_map, makeSegment_words] at hlen
  replace hvalid : ValidSpans segment.startMilliseconds segment.endMilliseconds
      (words.map fun word => ((word.startMs : Int), (word.endMs : Int))) := by
    rw [hsame]
    exact hvalid
  have hcontained : ∀ word ∈ words, segment.startMilliseconds.toNat ≤ word.startMs ∧
      word.endMs ≤ segment.endMilliseconds.toNat := by
    intro word hword
    obtain ⟨hfst, -, hlast⟩ := hvalid.1 _ (List.mem_map_of_mem hword)
    exact ⟨by omega, by omega⟩
  have hchron : words.IsChain fun previous current =>
      previous.endMs ≤ current.startMs := by
    have hchain := hvalid.2
    rw [List.isChain_map] at hchain
    exact hchain.imp fun _ _ hle => Int.ofNat_le.mp hle
  rw [readSegment, hloop]
  change ∃ read, dite _ _ _ = Except.ok read
  have hfld : BoundedText segment.text ∧ Milliseconds segment.startMilliseconds ∧
      Milliseconds segment.endMilliseconds ∧ words.length ≤ maxWordsPerTranscript :=
    ⟨h.text, ⟨hstart, by omega⟩, ⟨by omega, hend⟩, hlen.trans_le hwords⟩
  split
  · split
    · split
      · exact ⟨_, rfl⟩
      · exact absurd hcontained ‹_›
    · exact absurd hord ‹_›
  · exact absurd hfld ‹_›

theorem readCommand_ok (track : Track) (h : ∀ segment ∈ segments, Transcribed segment)
    (hchron : segments.IsChain fun previous current =>
      previous.endMilliseconds ≤ current.startMilliseconds)
    (hlen : segments.length ≤ maxSegmentsPerTranscript)
    (hwords : (segments.map fun segment => (spoken segment.words).length).sum ≤
      maxWordsPerTranscript) : ∃ command, readCommand (make track segments) = .ok command := by
  have hread : ∀ payload ∈ segments.map makeSegment, ∃ read, readSegment payload = .ok read := by
    rw [List.forall_mem_map]
    intro segment hseg
    refine readSegment_ok (h segment hseg) (le_trans ?_ hwords)
    exact List.single_le_sum (fun _ _ => Nat.zero_le _) _ (List.mem_map_of_mem hseg)
  obtain ⟨reads, hloop⟩ := exists_mapM_ok_iff.mpr hread
  have hsame := mapM_ok_map hloop readSegment_span
  rw [List.map_map] at hsame
  have hreads : reads.length ≤ maxSegmentsPerTranscript := by
    have hcnt := congrArg List.length hsame
    simp only [List.length_map] at hcnt
    exact hcnt.trans_le hlen
  have hchain : reads.IsChain fun previous current => previous.endMs ≤ current.startMs := by
    have hmap : (reads.map fun read =>
        ((read.startMs : Int), (read.endMs : Int), read.words.length)).IsChain
        fun previous current => previous.2.1 ≤ current.1 := by
      rw [hsame, List.isChain_map]
      exact hchron
    rw [List.isChain_map] at hmap
    exact hmap.imp fun _ _ hle => Int.ofNat_le.mp hle
  have hcounts : reads.map (fun read => read.words.length) =
      segments.map fun segment => (spoken segment.words).length := by
    have hthird := congrArg (List.map fun item : Int × Int × Nat => item.2.2) hsame
    simpa only [List.map_map, Function.comp_def, makeSegment_words] using hthird
  rw [readCommand, make, hloop]
  change ∃ command, dite _ _ _ = Except.ok command
  rw [dif_pos hreads, dif_pos hchain, dif_pos (hcounts ▸ hwords)]
  exact ⟨_, rfl⟩

def sampleSegment : SpeechTranscribedSegment where
  text := "so I"
  startMilliseconds := 100
  endMilliseconds := 900
  words := [⟨"so", 40, 500, 1⟩, ⟨"", 300, 200, 1⟩, ⟨"I", 450, 400, 1 / 2⟩]

theorem sampleSegment_transcribed : Transcribed sampleSegment where
  text := by decide
  span := by decide
  words := by decide +kernel

end TamForge.Transcripts.Payload
