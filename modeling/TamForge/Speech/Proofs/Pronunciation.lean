import Mathlib.Data.List.Induction
import TamForge.Speech.Pronunciation

/-!
# What the benchmark measures

The words that an aligner returned are looked up by their text.  The benchmark
measures an alignment exactly when no reference says a word twice, whatever
`str.casefold` makes of a text.
-/

namespace TamForge.Speech.Pronunciation

open Models ProofSupport

section Benchmark

variable {casefold : String → String} {words : List AlignedWord} {word : ReferenceWord}
  {reference : List ReferenceWord} {candidate : AlignmentCandidate} {aligner : Aligner}
  {recordings : List GoldRecording} {recording : GoldRecording} {sha : String} {position : Nat}

/-! ## Which returned word is used -/

def foldedText (casefold : String → String) (word : ReferenceWord) : String :=
  casefold word.text

/-- The position among the returned words of the one that a reference word is
measured against. -/
def usedPosition (casefold : String → String) (words : List AlignedWord)
    (word : ReferenceWord) : Option Nat :=
  Dict.get? (Dict.ofItems (words.zipIdx.map fun entry => (casefold entry.1.text, entry.2)))
    (foldedText casefold word)

theorem usedPosition_concat (last : AlignedWord) :
    usedPosition casefold (words ++ [last]) word =
      if casefold last.text = foldedText casefold word then some words.length
      else usedPosition casefold words word := by
  simp only [usedPosition, Dict.get?_ofItems, List.zipIdx_append, List.zipIdx_singleton,
    List.map_append, List.map_cons, List.map_nil, List.reverse_append, List.reverse_singleton,
    List.singleton_append, Dict.get?_cons, Nat.zero_add]

theorem get?_hypothesis_concat (last : AlignedWord) :
    Dict.get? (hypothesis casefold (words ++ [last])) (foldedText casefold word) =
      if casefold last.text = foldedText casefold word then some last
      else Dict.get? (hypothesis casefold words) (foldedText casefold word) := by
  simp only [hypothesis, Dict.get?_ofItems, List.map_append, List.map_cons, List.map_nil,
    List.reverse_append, List.reverse_singleton, List.singleton_append, Dict.get?_cons]

theorem getElem?_usedPosition (casefold : String → String) (words : List AlignedWord)
    (word : ReferenceWord) :
    (∀ position, usedPosition casefold words word = some position → position < words.length) ∧
      ((usedPosition casefold words word).bind fun position => words[position]?) =
        Dict.get? (hypothesis casefold words) (foldedText casefold word) := by
  induction words using List.reverseRecOn with
  | nil => exact ⟨fun _ h => (by cases h), rfl⟩
  | append_singleton front last ih =>
    obtain ⟨hbound, hf⟩ := ih
    rw [usedPosition_concat, get?_hypothesis_concat, List.length_append, List.length_singleton]
    by_cases hlast : casefold last.text = foldedText casefold word
    · rw [if_pos hlast, if_pos hlast]
      constructor
      · intro position hposn
        cases hposn
        omega
      · simp
    · rw [if_neg hlast, if_neg hlast, ← hf]
      constructor
      · intro position hposn
        have hlt := hbound position hposn
        omega
      · cases hused : usedPosition casefold front word with
        | none => rfl
        | some position =>
          simp only [Option.bind_some]
          exact List.getElem?_append_left (hbound position hused)

theorem folded_of_usedPosition (h : usedPosition casefold words word = some position) :
    (words[position]?).map (fun found => casefold found.text) =
      some (foldedText casefold word) := by
  rw [usedPosition, Dict.get?_ofItems] at h
  have hmem := Dict.mem_of_get? h
  rw [List.mem_reverse, List.mem_map] at hmem
  obtain ⟨⟨found, index⟩, hent, heq⟩ := hmem
  obtain ⟨hfolded, rfl⟩ := Prod.mk.inj heq
  rw [List.mem_zipIdx_iff_getElem?.mp hent, Option.map_some, hfolded]

def UsesOnce (casefold : String → String) (recordings : List GoldRecording)
    (aligner : Aligner) : Prop :=
  ∀ recording ∈ recordings, ∀ position,
    ((adjudicatedReference recording).filter fun word =>
      usedPosition casefold (aligner recording) word = some position).length ≤ 1

/-- No reference says a word twice. -/
def DistinctWords (casefold : String → String) (recordings : List GoldRecording) : Prop :=
  ∀ recording ∈ recordings,
    ((adjudicatedReference recording).map (foldedText casefold)).Nodup

theorem usesOnce_of_distinct (h : DistinctWords casefold recordings) :
    UsesOnce casefold recordings aligner := by
  intro recording hrecg position
  have hnd := (h recording hrecg).sublist ((List.filter_sublist (p := fun word =>
    decide (usedPosition casefold (aligner recording) word = some position))).map _)
  have hused : ∀ word ∈ (adjudicatedReference recording).filter (fun word =>
      decide (usedPosition casefold (aligner recording) word = some position)),
      some (foldedText casefold word) =
        ((aligner recording)[position]?).map fun found => casefold found.text := by
    intro word hword
    have hposn := (List.mem_filter.mp hword).2
    exact (folded_of_usedPosition (of_decide_eq_true hposn)).symm
  generalize (adjudicatedReference recording).filter (fun word =>
    decide (usedPosition casefold (aligner recording) word = some position)) = users at hnd hused
  match users, hnd, hused with
  | [], _, _ => simp
  | [_], _, _ => simp
  | first :: second :: rest, hnd, hused =>
    have hsame := (hused first (by simp)).trans (hused second (by simp)).symm
    simp [Option.some.inj hsame] at hnd

/-! ## An exact alignment -/

def exactAligner : Aligner := fun recording =>
  (adjudicatedReference recording).map fun word => ⟨word.text, word.startMs, word.endMs⟩

theorem distinct_of_usesOnce (h : UsesOnce casefold recordings exactAligner) :
    DistinctWords casefold recordings := by
  intro recording hrecg
  rw [List.nodup_iff_count_le_one]
  intro text
  by_contra hmany
  have hmem : text ∈ (adjudicatedReference recording).map (foldedText casefold) :=
    List.count_pos_iff.mp (by omega)
  obtain ⟨word, hword, rfl⟩ := List.mem_map.mp hmem
  -- all words of this text use the same returned word
  have hsome : (usedPosition casefold (exactAligner recording) word).isSome = true := by
    rw [usedPosition, Dict.get?_ofItems, Dict.get?_isSome]
    simp only [List.map_reverse, List.mem_reverse, List.map_map]
    have hin : (⟨word.text, word.startMs, word.endMs⟩ : AlignedWord) ∈ exactAligner recording :=
      List.mem_map_of_mem hword
    obtain ⟨index, hindex⟩ := List.mem_iff_getElem?.mp hin
    exact List.mem_map.mpr ⟨(_, index), List.mem_zipIdx_iff_getElem?.mpr hindex, rfl⟩
  obtain ⟨position, hposn⟩ := Option.isSome_iff_exists.mp hsome
  apply hmany
  calc ((adjudicatedReference recording).map (foldedText casefold)).count
        (foldedText casefold word)
      = (adjudicatedReference recording).countP fun other =>
          foldedText casefold other == foldedText casefold word := by
        rw [List.count, List.countP_map]
        rfl
    _ ≤ (adjudicatedReference recording).countP fun other =>
          decide (usedPosition casefold (exactAligner recording) other = some position) := by
        apply List.countP_mono_left
        intro other _ ho
        rw [decide_eq_true_eq, ← hposn, usedPosition, usedPosition, eq_of_beq ho]
    _ ≤ 1 := by
        rw [List.countP_eq_length_filter]
        exact h recording hrecg position

theorem get?_exact (h : ((adjudicatedReference recording).map (foldedText casefold)).Nodup)
    (hword : word ∈ adjudicatedReference recording) :
    Dict.get? (hypothesis casefold (exactAligner recording)) (casefold word.text) =
      some ⟨word.text, word.startMs, word.endMs⟩ := by
  have hkeys : (((exactAligner recording).map fun word =>
      (casefold word.text, word)).map Prod.fst).Nodup := by
    rw [exactAligner, List.map_map, List.map_map]
    exact h
  rw [hypothesis, Dict.ofItems_eq_self hkeys, Dict.get?_eq_some hkeys]
  exact List.mem_map.mpr ⟨_, List.mem_map_of_mem hword, rfl⟩

theorem foldl_word_exact {found : List (String × AlignedWord)}
    (h : ∀ word ∈ reference, Dict.get? found (casefold word.text) =
      some ⟨word.text, word.startMs, word.endMs⟩) (tally : Tally) :
    reference.foldl (Tally.word casefold found) tally =
      ⟨tally.errors ++ List.replicate reference.length 0, tally.aligned + reference.length,
        tally.unaligned⟩ := by
  induction reference generalizing tally with
  | nil => simp
  | cons word rest ih =>
    have hzero : boundaryError ⟨word.text, word.startMs, word.endMs⟩ word = 0 := by
      simp [boundaryError]
    rw [List.foldl_cons, Tally.word, h word (by simp)]
    simp only [ih fun other ho => h other (List.mem_cons_of_mem _ ho), hzero,
      List.length_cons, List.replicate_succ, List.append_assoc, List.singleton_append]
    congr 1
    omega

def referenceWords (recordings : List GoldRecording) : Nat :=
  (recordings.map fun recording => (adjudicatedReference recording).length).sum

theorem foldl_recording_exact (h : DistinctWords casefold recordings) (tally : Tally) :
    recordings.foldl (Tally.recording casefold exactAligner) tally =
      ⟨tally.errors ++ List.replicate (referenceWords recordings) 0,
        tally.aligned + referenceWords recordings, tally.unaligned⟩ := by
  induction recordings generalizing tally with
  | nil => simp [referenceWords]
  | cons recording rest ih =>
    have hf : ∀ word ∈ adjudicatedReference recording, _ :=
      fun word hword => get?_exact (h recording (by simp)) hword
    have hfst := foldl_word_exact hf tally
    rw [List.foldl_cons, Tally.recording, hfst,
      ih fun other ho => h other (List.mem_cons_of_mem _ ho)]
    simp only [referenceWords, List.map_cons, List.sum_cons, List.append_assoc,
      List.replicate_append_replicate, Nat.add_assoc]

theorem referenceWords_pos (hne : recordings ≠ []) : 0 < referenceWords recordings := by
  obtain ⟨recording, rest, rfl⟩ := List.exists_cons_of_ne_nil hne
  have hlen : 0 < (adjudicatedReference recording).length := by
    rw [adjudicatedReference, List.length_map, List.length_zipIdx]
    exact List.length_pos_iff.mpr recording.scored
  simp only [referenceWords, List.map_cons, List.sum_cons]
  omega

theorem meanError_replicate (count : Nat) : meanError (List.replicate count 0) = 0 := by
  have hmean : (List.replicate count (0 : Rat)).sum / (List.replicate count (0 : Rat)).length =
      0 := by
    simp
  rw [meanError, hmean]
  decide +kernel

/-- The benchmark of an exact alignment reports no error, no word that is not
aligned, and every word of the references. -/
def MeasuresExactly (casefold : String → String) (candidate : AlignmentCandidate)
    (recordings : List GoldRecording) (sha : String) : Prop :=
  ∃ measured accuracy, benchmark casefold candidate recordings exactAligner sha = .ok measured ∧
    measured.accuracy = some accuracy ∧ accuracy.meanBoundaryErrorMs = 0 ∧
    accuracy.wordsUnaligned = 0 ∧ accuracy.wordsAligned = referenceWords recordings

theorem measuresExactly_of_distinct (heligible : candidate.ineligibility = [])
    (hne : recordings ≠ []) (h : DistinctWords casefold recordings) :
    MeasuresExactly casefold candidate recordings sha := by
  have hpos := referenceWords_pos hne
  have htally := foldl_recording_exact h ⟨[], 0, 0⟩
  have hgrd : raiseFirst [
      (!candidate.ineligibility.isEmpty,
        (⟨candidate.key ++ " is ineligible; it is not benchmarked on private audio"⟩ :
          CandidateError)),
      (recordings.isEmpty, ⟨"an empty gold set measures nothing"⟩)] = .ok () :=
    raiseFirst_eq_ok.mpr (by simp [heligible, hne])
  have haligned : raiseFirst [(0 + referenceWords recordings == 0,
      (⟨candidate.key ++ " aligned no words; nothing to measure"⟩ : CandidateError))] = .ok () :=
    raiseFirst_eq_ok.mpr (by simp; omega)
  let accuracy : AccuracyMeasurement :=
    ⟨sha, recordings.length, meanError (List.replicate (referenceWords recordings) 0),
      0 + referenceWords recordings, 0⟩
  refine ⟨{ candidate with accuracy := some accuracy }, accuracy, ?_, rfl,
    meanError_replicate (referenceWords recordings), rfl,
    Nat.zero_add (referenceWords recordings)⟩
  simp only [benchmark, hgrd, htally, haligned, bind, Except.bind]
  rfl

end Benchmark

/-- `str.casefold` on ASCII letters. -/
def asciiCasefold (text : String) : String :=
  String.ofList (text.toList.map Char.toLower)

/-- The first candidate of `CANDIDATES`. -/
def sampleCandidate : AlignmentCandidate where
  key := "mfa"
  name := "Montreal Forced Aligner (Kaldi, english_us_arpa)"
  license := .mit
  runsOnHost := true
  sendsAudioOffHost := false
  residentMemoryMb := 600
  cpuSecondsPerAudioMinute := 8
  producesPhoneScores := false
  accuracy := none

def sampleRecording (first second : String) (hfirst : isToken first = true)
    (hsecond : isToken second = true) : GoldRecording where
  recordingId := "quiet-01"
  durationMs := 3000
  reference := [⟨first, 0, 200, hfirst, by decide⟩, ⟨second, 300, 500, hsecond, by decide⟩]
  adjudications := []
  scored := by simp
  timeline := by simp [isTimeline]
  point_at_words := by simp
  once := by simp

end TamForge.Speech.Pronunciation
