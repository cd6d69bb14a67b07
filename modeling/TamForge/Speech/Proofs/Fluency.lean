import Mathlib.Algebra.Order.Field.Basic
import Mathlib.Tactic.FieldSimp
import Mathlib.Tactic.Positivity
import TamForge.ProofSupport.Timelines
import TamForge.Speech.Metrics

/-!
# Speech time is accounted for

The tokens of a transcript are a timeline, and so are the words that they are
grouped into.  The speaking time and the gaps make up the duration, which bounds
the pauses and the rates.
-/

namespace TamForge.Speech.Metrics

open ProofSupport Speech.Schemas

variable {casefold : String → String} {isAlnum : Char → Bool}
  {transcript : TranscriptSubmitCommand} {run : List TranscriptWord}
  {words : List RecognizedWord} {word first last : RecognizedWord} {metrics : FluencyMetrics}

theorem chronological_words (seg : Schemas.TranscriptSegment) :
    Chronological TranscriptWord.startMs TranscriptWord.endMs seg.words :=
  Chronological.of_isChain (fun word _ => word.validate_span) seg.words_chronological

theorem chronological_tokens (transcript : TranscriptSubmitCommand) :
    Chronological TranscriptWord.startMs TranscriptWord.endMs transcript.tokens := by
  have hsegs : Chronological Schemas.TranscriptSegment.startMs
      Schemas.TranscriptSegment.endMs transcript.segments :=
    Chronological.of_isChain (fun seg _ => seg.validate_span)
      transcript.segments_chronological
  apply hsegs.flatMap
  · intro seg _
    exact chronological_words seg
  · intro seg _ word hword
    exact seg.words_contained word hword

theorem flatten_addToken (stack : List (List TranscriptWord)) (token : TranscriptWord) :
    (addToken stack token).reverse.flatten = stack.reverse.flatten ++ [token] := by
  cases stack with
  | nil => rfl
  | cons last earlier =>
    by_cases hstarts : startsWord token = true <;> simp [addToken, hstarts]

theorem addToken_ne_nil {stack : List (List TranscriptWord)} (token : TranscriptWord)
    (h : ∀ run ∈ stack, run ≠ []) : ∀ run ∈ addToken stack token, run ≠ [] := by
  cases stack with
  | nil => simp [addToken]
  | cons last earlier =>
    have hearl : ∀ run ∈ earlier, run ≠ [] :=
      fun run hrun => h run (List.mem_cons_of_mem _ hrun)
    by_cases hstarts : startsWord token = true
    · simpa [addToken, hstarts] using ⟨h last (by simp), hearl⟩
    · simpa [addToken, hstarts] using hearl

theorem foldl_addToken (tokens : List TranscriptWord) (stack : List (List TranscriptWord))
    (h : ∀ run ∈ stack, run ≠ []) :
    (tokens.foldl addToken stack).reverse.flatten = stack.reverse.flatten ++ tokens ∧
      ∀ run ∈ tokens.foldl addToken stack, run ≠ [] := by
  induction tokens generalizing stack with
  | nil => exact ⟨(List.append_nil _).symm, h⟩
  | cons token rest ih =>
    obtain ⟨hflatten, hne⟩ := ih (addToken stack token) (addToken_ne_nil token h)
    rw [flatten_addToken, List.append_assoc] at hflatten
    exact ⟨hflatten, hne⟩

theorem flatten_groupTokens (tokens : List TranscriptWord) :
    (groupTokens tokens).flatten = tokens :=
  (foldl_addToken tokens [] (by simp)).1

theorem groupTokens_ne_nil (tokens : List TranscriptWord) :
    ∀ run ∈ groupTokens tokens, run ≠ [] := by
  intro run hrun
  exact (foldl_addToken tokens [] (by simp)).2 run (List.mem_reverse.mp hrun)

theorem recognize_eq_some (h : recognize casefold isAlnum run = some word) :
    ∃ first last, run.head? = some first ∧ run.getLast? = some last ∧
      word.startMs = first.startMs ∧ word.endMs = last.endMs := by
  unfold recognize at h
  split at h
  · rename_i first last hfst hlast
    simp only at h
    split at h
    · cases h
    · cases h
      exact ⟨first, last, hfst, hlast, rfl, rfl⟩
  · cases h

theorem mem_segmentWords_span (h : word ∈ segmentWords casefold isAlnum transcript) :
    word.startMs ≤ word.endMs := by
  obtain ⟨run, hrun, hword⟩ := List.mem_filterMap.mp h
  obtain ⟨first, last, hfst, hlast, hstart, hend⟩ := recognize_eq_some hword
  have htoks := chronological_tokens transcript
  rw [← flatten_groupTokens transcript.tokens] at htoks
  have hchron := (List.pairwise_flatten.mp htoks).1 run hrun
  rw [hstart, hend]
  exact Chronological.start_le_stop hchron (fun word _ => word.validate_span) hfst hlast

theorem chronological_segmentWords (transcript : TranscriptSubmitCommand) :
    Chronological RecognizedWord.startMs RecognizedWord.endMs
      (segmentWords casefold isAlnum transcript) := by
  have htoks := chronological_tokens transcript
  rw [← flatten_groupTokens transcript.tokens] at htoks
  unfold Chronological segmentWords
  rw [List.pairwise_filterMap]
  apply (List.pairwise_flatten.mp htoks).2.imp
  intro earl later hle word hword other ho
  obtain ⟨_, last, _, hlast, _, hend⟩ := recognize_eq_some hword
  obtain ⟨first, _, hfst, _, hstart, _⟩ := recognize_eq_some ho
  rw [hend, hstart]
  exact hle last (List.mem_of_getLast? hlast) first (List.mem_of_head? hfst)

/-! ## Durations -/

theorem speakingMs_add_gaps
    (h : Chronological RecognizedWord.startMs RecognizedWord.endMs words)
    (hfst : words.head? = some first) (hlast : words.getLast? = some last) :
    speakingMs words + (gaps words).sum = durationMs first last :=
  h.sum_add_gapsOf hfst hlast

theorem gaps_nonneg (words : List RecognizedWord) : ∀ gap ∈ gaps words, 0 ≤ gap :=
  Chronological.gapsOf_nonneg

theorem sum_filter_le {list : List Int} (p : Int → Bool) (h : ∀ n ∈ list, 0 ≤ n) :
    (list.filter p).sum ≤ list.sum :=
  List.filter_sublist.sum_le_sum h

theorem sum_pauses_le (words : List RecognizedWord) : (pauses words).sum ≤ (gaps words).sum :=
  sum_filter_le _ (gaps_nonneg words)

theorem sum_gaps_nonneg (words : List RecognizedWord) : 0 ≤ (gaps words).sum :=
  List.sum_nonneg (gaps_nonneg words)

theorem bandCount_add (words : List RecognizedWord) :
    bandCount words (fun pause => pause < shortPauseCeilingMs) +
        bandCount words (fun pause => shortPauseCeilingMs ≤ pause ∧ pause < longPauseFloorMs) +
        bandCount words (fun pause => longPauseFloorMs ≤ pause) =
      (pauses words).length := by
  unfold bandCount
  norm_cast
  induction pauses words with
  | nil => rfl
  | cons pause rest ih =>
    unfold shortPauseCeilingMs longPauseFloorMs at ih ⊢
    by_cases hshort : pause < 500
    · rw [List.countP_cons_of_pos (by simpa using hshort),
        List.countP_cons_of_neg (by simp; omega), List.countP_cons_of_neg (by simp; omega),
        List.length_cons]
      omega
    by_cases hlong : 1000 ≤ pause
    · rw [List.countP_cons_of_neg (by simpa using hshort),
        List.countP_cons_of_neg (by simp; omega), List.countP_cons_of_pos (by simpa using hlong),
        List.length_cons]
      omega
    · rw [List.countP_cons_of_neg (by simpa using hshort),
        List.countP_cons_of_pos (by simp; omega), List.countP_cons_of_neg (by simpa using hlong),
        List.length_cons]
      omega

/-! ## Metrics -/

def Sampled (words : List RecognizedWord) (first last : RecognizedWord) : Prop :=
  minResponseSeconds ≤ (durationMs first last : Rat) / 1000 ∧ minRecognizedWords ≤ words.length

instance : Decidable (Sampled words first last) := inferInstanceAs (Decidable (_ ∧ _))

structure Measures (words : List RecognizedWord) (first last : RecognizedWord)
    (metrics : FluencyMetrics) : Prop where
  duration : metrics.responseDurationSeconds.value? = some (durationMs first last / 1000 : Rat)
  short : metrics.pauseCount250To499Ms.value? =
    some (bandCount words fun pause => pause < shortPauseCeilingMs)
  medium : metrics.pauseCount500To999Ms.value? =
    some (bandCount words fun pause => shortPauseCeilingMs ≤ pause ∧ pause < longPauseFloorMs)
  long : metrics.pauseCount1000MsPlus.value? =
    some (bandCount words fun pause => longPauseFloorMs ≤ pause)
  pauseTime : metrics.pauseSecondsTotal.value? = some (((pauses words).sum : Int) / 1000 : Rat)
  speechRate : Sampled words first last → metrics.speechRateWpm.value? =
    some (words.length / ((durationMs first last : Rat) / 1000 / 60))
  articulation : ∀ rate ∈ metrics.articulationRateWpm.value?, Sampled words first last ∧
    0 < speakingMs words ∧ rate = words.length / ((speakingMs words : Rat) / 1000 / 60)
  phonation : ∀ ratio ∈ metrics.phonationTimeRatio.value?, Sampled words first last ∧
    0 < speakingMs words ∧
    ratio = (speakingMs words : Rat) / 1000 / ((durationMs first last : Rat) / 1000)

theorem divide_ok {dividend divisor : Rat} (h : divisor ≠ 0) :
    divide dividend divisor = .ok (dividend / divisor) := if_neg h

theorem divide_milliseconds (value : Rat) :
    divide value millisecondsPerSecond = .ok (value / 1000) :=
  divide_ok (by norm_num [millisecondsPerSecond])

theorem divide_minute (value : Rat) : divide value secondsPerMinute = .ok (value / 60) :=
  divide_ok (by norm_num [secondsPerMinute])

theorem calculateFluency_ok (hfst : words.head? = some first)
    (hlast : words.getLast? = some last) :
    ∃ metrics, calculateFluency words = .ok metrics ∧ Measures words first last metrics := by
  have hruns : (((pauses words).length + 1 : Nat) : Rat) ≠ 0 := by positivity
  unfold calculateFluency
  simp only [hfst, hlast, divide_milliseconds, divide_minute, divide_ok hruns, bind, Except.bind,
    pure, Except.pure]
  by_cases hsampled : Sampled words first last
  · have hduration : (durationMs first last : Rat) / 1000 ≠ 0 := by
      have hpos : (0 : Rat) < 10 := by norm_num
      exact (lt_of_lt_of_le hpos hsampled.1).ne'
    have hmins : (durationMs first last : Rat) / 1000 / 60 ≠ 0 :=
      div_ne_zero hduration (by norm_num)
    by_cases hspeaking : 0 < speakingMs words
    · have hsecs : (0 : Rat) < (speakingMs words : Rat) / 1000 := by positivity
      have hspk : (speakingMs words : Rat) / 1000 / 60 ≠ 0 := by positivity
      simp only [divide_ok hmins, divide_ok hspk, divide_ok hduration, if_pos hsecs,
        if_pos (show _ ∧ _ from hsampled)]
      exact ⟨_, rfl, rfl, rfl, rfl, rfl, rfl, by simp, by simp [hsampled, hspeaking],
        by simp [hsampled, hspeaking]⟩
    · have hsecs : ¬ (0 : Rat) < (speakingMs words : Rat) / 1000 := by
        have hle : (speakingMs words : Rat) ≤ 0 := by exact_mod_cast not_lt.mp hspeaking
        linarith
      simp only [divide_ok hmins, if_neg hsecs, if_pos (show _ ∧ _ from hsampled)]
      exact ⟨_, rfl, rfl, rfl, rfl, rfl, rfl, by simp, by simp, by simp⟩
  · simp only [if_neg (show ¬ (_ ∧ _) from hsampled)]
    exact ⟨_, rfl, rfl, rfl, rfl, rfl, rfl, by simp [hsampled], by simp, by simp⟩

/-! ## The account -/

structure Regroups (casefold : String → String) (isAlnum : Char → Bool)
    (tokens : List TranscriptWord) (words : List RecognizedWord) : Prop where
  runs : ∃ runs : List (List TranscriptWord), runs.flatten = tokens ∧ (∀ run ∈ runs, run ≠ []) ∧
    words = runs.filterMap (recognize casefold isAlnum)
  span : ∀ word ∈ words, word.startMs ≤ word.endMs
  chronological : words.Pairwise fun earlier later => earlier.endMs ≤ later.startMs

structure Accounts (words : List RecognizedWord) (metrics : FluencyMetrics) : Prop where
  duration : ∀ first ∈ words.head?, ∀ last ∈ words.getLast?,
    speakingMs words + (gaps words).sum = durationMs first last ∧
      metrics.responseDurationSeconds.value? = some ((durationMs first last : Rat) / 1000)
  counts : words ≠ [] → ∃ short medium long : Rat,
    metrics.pauseCount250To499Ms.value? = some short ∧
      metrics.pauseCount500To999Ms.value? = some medium ∧
      metrics.pauseCount1000MsPlus.value? = some long ∧
      short + medium + long = (gaps words).countP fun gap => 250 ≤ gap
  pauseTime : words ≠ [] → ∃ pause duration : Rat,
    metrics.pauseSecondsTotal.value? = some pause ∧
      metrics.responseDurationSeconds.value? = some duration ∧
      pause ≤ duration - (speakingMs words : Rat) / 1000
  phonation : ∀ ratio ∈ metrics.phonationTimeRatio.value?, 0 < ratio ∧ ratio ≤ 1
  rates : ∀ articulation ∈ metrics.articulationRateWpm.value?,
    ∃ speech ∈ metrics.speechRateWpm.value?, speech ≤ articulation

theorem regroups_segmentWords (transcript : TranscriptSubmitCommand) :
    Regroups casefold isAlnum transcript.tokens (segmentWords casefold isAlnum transcript) where
  runs := ⟨groupTokens transcript.tokens, flatten_groupTokens _, groupTokens_ne_nil _, rfl⟩
  span _ hword := mem_segmentWords_span hword
  chronological := chronological_segmentWords transcript

theorem Measures.accounts (h : Measures words first last metrics)
    (hchron : Chronological RecognizedWord.startMs RecognizedWord.endMs words)
    (hfst : words.head? = some first) (hlast : words.getLast? = some last) :
    Accounts words metrics := by
  have htot : speakingMs words + (gaps words).sum = durationMs first last :=
    speakingMs_add_gaps hchron hfst hlast
  have hspeaking : (speakingMs words : Rat) ≤ durationMs first last := by
    have hgaps := sum_gaps_nonneg words
    exact_mod_cast (by omega : speakingMs words ≤ durationMs first last)
  constructor
  · intro first' hfst' last' hlast'
    cases hfst.symm.trans hfst'
    cases hlast.symm.trans hlast'
    exact ⟨htot, h.duration⟩
  · intro _
    refine ⟨_, _, _, h.short, h.medium, h.long, ?_⟩
    rw [bandCount_add, pauses, List.countP_eq_length_filter]
    rfl
  · intro _
    refine ⟨_, _, h.pauseTime, h.duration, ?_⟩
    have hpauses : ((pauses words).sum : Rat) ≤ durationMs first last - speakingMs words := by
      have hle := sum_pauses_le words
      exact_mod_cast (by omega : (pauses words).sum ≤ durationMs first last - speakingMs words)
    calc ((pauses words).sum : Rat) / 1000
        ≤ ((durationMs first last : Rat) - speakingMs words) / 1000 := by gcongr
      _ = (durationMs first last : Rat) / 1000 - (speakingMs words : Rat) / 1000 := sub_div ..
  · intro ratio hratio
    obtain ⟨hsampled, hspk, rfl⟩ := h.phonation ratio hratio
    have hpos : (0 : Rat) < speakingMs words := by exact_mod_cast hspk
    have hduration : (0 : Rat) < durationMs first last := lt_of_lt_of_le hpos hspeaking
    refine ⟨by positivity, ?_⟩
    rw [div_le_one (by positivity)]
    gcongr
  · intro articulation harticulation
    obtain ⟨hsampled, hspk, rfl⟩ := h.articulation articulation harticulation
    refine ⟨_, h.speechRate hsampled, ?_⟩
    have hpos : (0 : Rat) < speakingMs words := by exact_mod_cast hspk
    gcongr

theorem accounts_noFluency : Accounts [] noFluency := by
  constructor <;> simp [noFluency]

/-- Speech time is fully accounted for, whatever folds the case of a token and
tells its letters and digits. -/
theorem speech_time_accounted (casefold : String → String) (isAlnum : Char → Bool)
    (transcript : TranscriptSubmitCommand) :
    Regroups casefold isAlnum transcript.tokens (segmentWords casefold isAlnum transcript) ∧
      ∃ metrics, calculateFluency (segmentWords casefold isAlnum transcript) = .ok metrics ∧
        Accounts (segmentWords casefold isAlnum transcript) metrics := by
  refine ⟨regroups_segmentWords transcript, ?_⟩
  have hchronological : Chronological RecognizedWord.startMs RecognizedWord.endMs
      (segmentWords casefold isAlnum transcript) := chronological_segmentWords transcript
  generalize segmentWords casefold isAlnum transcript = words at hchronological ⊢
  cases hfirst : words.head? with
  | none =>
    obtain rfl : words = [] := List.head?_eq_none_iff.mp hfirst
    exact ⟨noFluency, rfl, accounts_noFluency⟩
  | some first =>
    have hne : words ≠ [] := List.ne_nil_of_mem (List.mem_of_head? hfirst)
    have hlast := List.getLast?_eq_some_getLast hne
    obtain ⟨metrics, hmetrics, hmeasures⟩ := calculateFluency_ok hfirst hlast
    exact ⟨metrics, hmetrics, hmeasures.accounts hchronological hfirst hlast⟩

end TamForge.Speech.Metrics
