import Mathlib.Data.List.Pairwise
import TamForge.Speech.Metrics

/-!
# Questions and answers of an interview

The utterances of a track and the turns that pair a question with its answer
(`interviews/timeline.py`).
-/

namespace TamForge.Interviews

open Speech.Metrics

structure TimelineError where
  message : String

inductive Speaker where
  | user | remote

structure Utterance where
  speaker : Speaker
  startMs : Nat
  endMs : Nat

/-- `Utterance(speaker, start, end)` -/
def utterance (speaker : Speaker) (startMs endMs : Nat) : Except TimelineError Utterance :=
  if endMs < startMs then .error ⟨"an utterance cannot end before it starts"⟩
  else .ok ⟨speaker, startMs, endMs⟩

structure QuestionTurn where
  index : Nat
  question : Utterance
  answer : Option Utterance

/-- The loop of `_group`, behind the words that `start` and `stop` are of. -/
def groupFrom (speaker : Speaker) (gapMs start stop : Nat) :
    List RecognizedWord → Except TimelineError (List Utterance)
  | [] => do return [← utterance speaker start stop]
  | word :: rest =>
    if gapMs + stop ≤ word.startMs then do
      let first ← utterance speaker start stop
      return first :: (← groupFrom speaker gapMs word.startMs (max stop word.endMs) rest)
    else groupFrom speaker gapMs start (max stop word.endMs) rest

/-- `_group` -/
def group (words : List RecognizedWord) (speaker : Speaker) (gapMs : Nat) :
    Except TimelineError (List Utterance) :=
  match words with
  | [] => .ok []
  | word :: rest => groupFrom speaker gapMs word.startMs word.endMs rest

def answerTo (answers : List Utterance) (question : Utterance) (nextQuestion : Option Nat) :
    Option Utterance :=
  answers.find? fun item =>
    decide (question.endMs ≤ item.startMs) && nextQuestion.all (item.startMs < ·)

def segmentQuestions (microphone systemAudio : List RecognizedWord) (gapMs : Nat) :
    Except TimelineError (List QuestionTurn) := do
  let questions ← group systemAudio .remote gapMs
  let answers ← group microphone .user gapMs
  return questions.zipIdx.map fun (question, index) =>
    ⟨index, question, answerTo answers question (questions[index + 1]?.map Utterance.startMs)⟩

end TamForge.Interviews

/-!
## Which speech is taken for an answer

The words of a track fall into stretches without a pause.  A turn takes the first
stretch that starts behind its question, so that it misses what the learner says
behind a pause, and what was begun while the question was still asked.
-/

namespace TamForge.Interviews

open ProofSupport Speech.Metrics

variable {words rest run microphone systemAudio : List RecognizedWord} {gapMs start stop : Nat}
  {speaker : Speaker} {word first : RecognizedWord}

structure InSequence (words : List RecognizedWord) : Prop where
  starts : words.Pairwise fun first second => first.startMs ≤ second.startMs
  ends : ∀ word ∈ words, word.startMs ≤ word.endMs

/-! ## Stretches of speech -/

def stretchesFrom (gapMs stop : Nat) (run : List RecognizedWord) :
    List RecognizedWord → List (List RecognizedWord)
  | [] => [run]
  | word :: rest =>
    if gapMs + stop ≤ word.startMs then
      run :: stretchesFrom gapMs (max stop word.endMs) [word] rest
    else stretchesFrom gapMs (max stop word.endMs) (run ++ [word]) rest

/-- The words of a track, cut where a pause of `gapMs` comes before a word. -/
def stretches (gapMs : Nat) : List RecognizedWord → List (List RecognizedWord)
  | [] => []
  | word :: rest => stretchesFrom gapMs word.endMs [word] rest

def lastEnd (run : List RecognizedWord) : Nat := run.foldr (fun word stop => max word.endMs stop) 0

def firstStart (run : List RecognizedWord) : Nat := (run.head?.map RecognizedWord.startMs).getD 0

def utteranceOf (speaker : Speaker) (run : List RecognizedWord) : Utterance :=
  ⟨speaker, firstStart run, lastEnd run⟩

theorem le_lastEnd (h : word ∈ run) : word.endMs ≤ lastEnd run := by
  induction run with
  | nil => cases h
  | cons first rest ih =>
    rw [lastEnd, List.foldr_cons]
    rcases List.mem_cons.mp h with rfl | hrest
    · exact Nat.le_max_left _ _
    · exact le_trans (ih hrest) (Nat.le_max_right _ _)

theorem lastEnd_le (h : ∀ word ∈ run, word.endMs ≤ stop) : lastEnd run ≤ stop := by
  induction run with
  | nil => exact Nat.zero_le _
  | cons first rest ih =>
    rw [lastEnd, List.foldr_cons]
    exact Nat.max_le.mpr ⟨h first (by simp), ih fun word hword => h word (by simp [hword])⟩

theorem lastEnd_concat (run : List RecognizedWord) (word : RecognizedWord) :
    lastEnd (run ++ [word]) = max (lastEnd run) word.endMs := by
  induction run with
  | nil => simp [lastEnd]
  | cons first rest ih =>
    rw [List.cons_append, lastEnd, List.foldr_cons]
    rw [lastEnd] at ih
    rw [ih, ← Nat.max_assoc]
    rfl

theorem flatten_stretchesFrom (gapMs stop : Nat) (run rest : List RecognizedWord) :
    (stretchesFrom gapMs stop run rest).flatten = run ++ rest := by
  induction rest generalizing run stop with
  | nil => simp [stretchesFrom]
  | cons word rest ih =>
    rw [stretchesFrom]
    split_ifs
    · rw [List.flatten_cons, ih, List.singleton_append]
    · rw [ih, List.append_assoc, List.singleton_append]

theorem flatten_stretches (gapMs : Nat) (words : List RecognizedWord) :
    (stretches gapMs words).flatten = words := by
  cases words with
  | nil => rfl
  | cons word rest => exact flatten_stretchesFrom gapMs word.endMs [word] rest

theorem mem_iff_stretch : word ∈ words ↔ ∃ run ∈ stretches gapMs words, word ∈ run := by
  rw [← List.mem_flatten, flatten_stretches]

theorem ne_nil_of_stretchesFrom (hrun : run ≠ []) :
    ∀ other ∈ stretchesFrom gapMs stop run rest, other ≠ [] := by
  induction rest generalizing run stop with
  | nil => simpa [stretchesFrom] using hrun
  | cons word rest ih =>
    rw [stretchesFrom]
    split_ifs
    · exact List.forall_mem_cons.mpr ⟨hrun, ih (List.cons_ne_nil _ _)⟩
    · exact ih (by simp)

theorem ne_nil_of_stretch (h : run ∈ stretches gapMs words) : run ≠ [] := by
  cases words with
  | nil => cases h
  | cons word rest => exact ne_nil_of_stretchesFrom (List.cons_ne_nil _ _) run h

def Paused (gapMs : Nat) (earlier later : List RecognizedWord) : Prop :=
  ∀ first ∈ earlier, ∀ second ∈ later, gapMs + first.endMs ≤ second.startMs

def Apart (gapMs : Nat) (first second : List RecognizedWord) : Prop :=
  Paused gapMs first second ∨ Paused gapMs second first

instance : Std.Symm (Apart gapMs) := ⟨fun _ _ => Or.symm⟩

theorem paused_stretchesFrom (hrun : lastEnd run = stop) (h : InSequence (run ++ rest)) :
    (stretchesFrom gapMs stop run rest).Pairwise (Paused gapMs) := by
  induction rest generalizing run stop with
  | nil => exact List.pairwise_singleton _ _
  | cons word rest ih =>
    have hword : word.startMs ≤ word.endMs := h.ends word (by simp)
    obtain ⟨-, hbehind, -⟩ := List.pairwise_append.mp h.starts
    rw [stretchesFrom]
    split_ifs with hpause
    · refine List.pairwise_cons.mpr ⟨fun later hlat => ?_, ih ?_ ?_⟩
      · intro first hfst second hsec
        have hmem : second ∈ word :: rest := by
          rw [← List.singleton_append, ← flatten_stretchesFrom gapMs (max stop word.endMs)]
          exact List.mem_flatten.mpr ⟨later, hlat, hsec⟩
        have hstart : word.startMs ≤ second.startMs := by
          rcases List.mem_cons.mp hmem with rfl | hrest
          · exact Nat.le_refl _
          · exact (List.pairwise_cons.mp hbehind).1 second hrest
        have hend := hrun ▸ le_lastEnd hfst
        omega
      · simp only [lastEnd, List.foldr_cons, List.foldr_nil]
        omega
      · exact ⟨hbehind, fun other ho => h.ends other (List.mem_append_right _ ho)⟩
    · apply ih
      · rw [lastEnd_concat, hrun]
      · rwa [List.append_assoc, List.singleton_append]

theorem paused_stretches (gapMs : Nat) (h : InSequence words) :
    (stretches gapMs words).Pairwise (Paused gapMs) := by
  cases words with
  | nil => exact List.Pairwise.nil
  | cons word rest => exact paused_stretchesFrom (by simp [lastEnd]) h

theorem utterance_ok {startMs endMs : Nat} (h : startMs ≤ endMs) :
    utterance speaker startMs endMs = .ok ⟨speaker, startMs, endMs⟩ :=
  if_neg (Nat.not_lt.mpr h)

theorem groupFrom_ok (hrun : run ≠ []) (hstart : firstStart run = start)
    (hstop : lastEnd run = stop) (hle : start ≤ stop) (h : InSequence (run ++ rest)) :
    groupFrom speaker gapMs start stop rest =
      .ok ((stretchesFrom gapMs stop run rest).map (utteranceOf speaker)) := by
  induction rest generalizing run start stop with
  | nil =>
    rw [groupFrom, utterance_ok hle, stretchesFrom, List.map_singleton, utteranceOf, hstart, hstop]
    rfl
  | cons word rest ih =>
    have hword : word.startMs ≤ word.endMs := h.ends word (by simp)
    rw [groupFrom, stretchesFrom]
    split_ifs with hpause
    · have hlast : lastEnd [word] = max stop word.endMs := by
        simp only [lastEnd, List.foldr_cons, List.foldr_nil]
        omega
      have htail := h.starts.sublist (List.sublist_append_right run (word :: rest))
      have hrest : groupFrom speaker gapMs word.startMs (max stop word.endMs) rest =
          .ok ((stretchesFrom gapMs (max stop word.endMs) [word] rest).map (utteranceOf speaker)) :=
        ih (List.cons_ne_nil _ _) rfl hlast (by omega)
          ⟨htail, fun other ho => h.ends other (List.mem_append_right _ ho)⟩
      rw [utterance_ok hle, hrest, List.map_cons, utteranceOf, hstart, hstop]
      rfl
    · apply ih (by simp)
      · obtain ⟨first, others, rfl⟩ := List.exists_cons_of_ne_nil hrun
        exact hstart
      · rw [lastEnd_concat, hstop]
      · exact le_trans hle (Nat.le_max_left _ _)
      · rwa [List.append_assoc, List.singleton_append]

theorem group_ok (h : InSequence words) :
    group words speaker gapMs = .ok ((stretches gapMs words).map (utteranceOf speaker)) := by
  cases words with
  | nil => rfl
  | cons word rest =>
    exact groupFrom_ok (List.cons_ne_nil _ _) rfl (by simp [lastEnd]) (h.ends word (by simp)) h

/-! ## Turns -/

def Follows (questions : List Utterance) (index : Nat) (startMs : Nat) : Prop :=
  (∀ question, questions[index]? = some question → question.endMs ≤ startMs) ∧
    ∀ next, questions[index + 1]? = some next → startMs < next.startMs

def Within (word : RecognizedWord) (utterance : Utterance) : Prop :=
  utterance.startMs ≤ word.startMs ∧ word.endMs ≤ utterance.endMs

def remoteUtterances (gapMs : Nat) (systemAudio : List RecognizedWord) : List Utterance :=
  (stretches gapMs systemAudio).map (utteranceOf .remote)

/-- One turn for each remote utterance; each word of the learner between a question and the
next one lies within the answer, and none lies within two answers. -/
structure Paired (microphone systemAudio : List RecognizedWord) (gapMs : Nat)
    (turns : List QuestionTurn) : Prop where
  questions : turns.map QuestionTurn.question = remoteUtterances gapMs systemAudio
  indexed : turns.map QuestionTurn.index = List.range turns.length
  answered : ∀ turn ∈ turns, ∀ word ∈ microphone,
    Follows (remoteUtterances gapMs systemAudio) turn.index word.startMs →
      ∃ answer, turn.answer = some answer ∧ Within word answer
  once : ∀ first ∈ turns, ∀ second ∈ turns, first ≠ second →
    ∀ answer, first.answer = some answer → ∀ other, second.answer = some other →
      ∀ word ∈ microphone, ¬(Within word answer ∧ Within word other)

/-- Between a question and the next one the learner speaks in one stretch, which starts
there. -/
def OneStretch (microphone systemAudio : List RecognizedWord) (gapMs : Nat) : Prop :=
  ∀ index < (remoteUtterances gapMs systemAudio).length,
    ∀ run ∈ stretches gapMs microphone, ∀ word ∈ run,
      Follows (remoteUtterances gapMs systemAudio) index word.startMs →
        Follows (remoteUtterances gapMs systemAudio) index (firstStart run) ∧
          ∀ other ∈ stretches gapMs microphone, ∀ second ∈ other,
            Follows (remoteUtterances gapMs systemAudio) index second.startMs → other = run

theorem firstStart_spec (h : InSequence words) (hrun : run ∈ stretches gapMs words) :
    (∃ first ∈ run, firstStart run = first.startMs) ∧
      ∀ word ∈ run, firstStart run ≤ word.startMs := by
  have hsubl : run.Sublist words := by
    have hflat := List.sublist_flatten_of_mem hrun
    rwa [flatten_stretches] at hflat
  obtain ⟨first, others, rfl⟩ := List.exists_cons_of_ne_nil (ne_nil_of_stretch hrun)
  refine ⟨⟨first, by simp, rfl⟩, fun word hword => ?_⟩
  rcases List.mem_cons.mp hword with rfl | hos
  · exact Nat.le_refl _
  · exact (List.pairwise_cons.mp (h.starts.sublist hsubl)).1 word hos

theorem stretch_of_within {own : List RecognizedWord} (h : InSequence words) (hgap : 1 ≤ gapMs)
    (hown : own ∈ stretches gapMs words) (hrun : run ∈ stretches gapMs words) (hword : word ∈ own)
    (hwithin : Within word (utteranceOf speaker run)) : own = run := by
  by_contra hne
  have hends := h.ends word (mem_iff_stretch.mpr ⟨own, hown, hword⟩)
  obtain ⟨hstart, hend⟩ := hwithin
  have hapart : (stretches gapMs words).Pairwise (Apart gapMs) :=
    (paused_stretches gapMs h).imp Or.inl
  rcases hapart.forall hown hrun hne with hb | hbehind
  · obtain ⟨first, hfst, heq⟩ := (firstStart_spec h hrun).1
    have hle := hb word hword first hfst
    simp only [utteranceOf] at hstart
    omega
  · have hlast : lastEnd run ≤ word.startMs - gapMs :=
      lastEnd_le fun other ho => by
        have hle := hbehind other ho word hword
        omega
    have hpause : gapMs ≤ word.startMs := by
      obtain ⟨first, hfst, -⟩ := (firstStart_spec h hrun).1
      have hle := hbehind first hfst word hword
      omega
    simp only [utteranceOf] at hend
    omega

def answerAt (microphone systemAudio : List RecognizedWord) (gapMs index : Nat)
    (question : Utterance) : Option Utterance :=
  answerTo ((stretches gapMs microphone).map (utteranceOf .user)) question
    ((remoteUtterances gapMs systemAudio)[index + 1]?.map Utterance.startMs)

section Answers

variable {index : Nat} {question answer : Utterance}
  (hquestion : (remoteUtterances gapMs systemAudio)[index]? = some question)

include hquestion

/-- What `answerTo` finds is a stretch that starts between the question and the next one. -/
theorem answerAt_spec
    (h : answerAt microphone systemAudio gapMs index question = some answer) :
    ∃ run ∈ stretches gapMs microphone, answer = utteranceOf .user run ∧
      Follows (remoteUtterances gapMs systemAudio) index (firstStart run) := by
  obtain ⟨run, hrun, rfl⟩ := List.mem_map.mp (List.mem_of_find?_eq_some h)
  have hf := List.find?_some h
  simp only [Bool.and_eq_true, decide_eq_true_eq, Option.all_map] at hf
  refine ⟨run, hrun, rfl, fun other ho => ?_, fun next hnext => ?_⟩
  · rw [hquestion] at ho
    exact Option.some.inj ho ▸ hf.1
  · have hlt := hf.2
    rw [hnext] at hlt
    exact of_decide_eq_true hlt

theorem exists_answerAt (hrun : run ∈ stretches gapMs microphone)
    (hfollows : Follows (remoteUtterances gapMs systemAudio) index (firstStart run)) :
    ∃ answer, answerAt microphone systemAudio gapMs index question = some answer := by
  rw [← Option.isSome_iff_exists, answerAt, answerTo, List.find?_isSome]
  refine ⟨_, List.mem_map_of_mem hrun, ?_⟩
  rw [Bool.and_eq_true, decide_eq_true_eq, Option.all_map]
  refine ⟨hfollows.1 question hquestion, ?_⟩
  cases hnext : (remoteUtterances gapMs systemAudio)[index + 1]? with
  | none => rfl
  | some next => exact decide_eq_true (hfollows.2 next hnext)

end Answers

theorem next_start_le (h : InSequence systemAudio) {i j : Nat} (hlt : i < j)
    {next question : Utterance} (hnext : (remoteUtterances gapMs systemAudio)[i + 1]? = some next)
    (hquestion : (remoteUtterances gapMs systemAudio)[j]? = some question) :
    next.startMs ≤ question.endMs := by
  rw [remoteUtterances, List.getElem?_map, Option.map_eq_some_iff] at hnext hquestion
  obtain ⟨first, hfst, rfl⟩ := hnext
  obtain ⟨second, hsec, rfl⟩ := hquestion
  have hmem := List.mem_of_getElem? hfst
  have hmem' := List.mem_of_getElem? hsec
  obtain ⟨word, hword, hstart⟩ := (firstStart_spec h hmem).1
  have hends := h.ends word (mem_iff_stretch.mpr ⟨first, hmem, hword⟩)
  simp only [utteranceOf, hstart]
  rcases Nat.lt_or_eq_of_le (Nat.succ_le_of_lt hlt) with hless | rfl
  · obtain ⟨hi, hfst⟩ := List.getElem?_eq_some_iff.mp hfst
    obtain ⟨hj, hsec⟩ := List.getElem?_eq_some_iff.mp hsec
    have hpaused := List.pairwise_iff_getElem.mp (paused_stretches gapMs h) (i + 1) j hi hj hless
    rw [hfst, hsec] at hpaused
    obtain ⟨last, hlast⟩ := List.exists_mem_of_ne_nil _ (ne_nil_of_stretch hmem')
    have hle := hpaused word hword last hlast
    have hlast_ends := h.ends last (mem_iff_stretch.mpr ⟨second, hmem', hlast⟩)
    have hlast_le := le_lastEnd hlast
    omega
  · have hsame : first = second := Option.some.inj (hfst.symm.trans hsec)
    have hle := le_lastEnd hword
    rw [hsame] at hle
    omega

section Turns

variable (hmicrophone : InSequence microphone) (hsystem : InSequence systemAudio)

include hmicrophone hsystem

theorem segmentQuestions_ok (gapMs : Nat) :
    ∃ turns, segmentQuestions microphone systemAudio gapMs = .ok turns ∧
      turns.map QuestionTurn.question = remoteUtterances gapMs systemAudio ∧
      turns.map QuestionTurn.index = List.range turns.length ∧
      ∀ turn, turn ∈ turns ↔
        (remoteUtterances gapMs systemAudio)[turn.index]? = some turn.question ∧
        turn.answer = answerAt microphone systemAudio gapMs turn.index turn.question := by
  refine ⟨_, bind_ok_iff.mpr ⟨_, group_ok hsystem, bind_ok_iff.mpr ⟨_, group_ok hmicrophone, rfl⟩⟩,
    ?_, ?_, fun turn => ?_⟩
  · rw [List.map_map]
    exact List.zipIdx_map_fst 0 _
  · rw [List.map_map, List.length_map, List.length_zipIdx]
    exact (List.zipIdx_map_snd 0 _).trans (List.range_eq_range'.symm)
  · rw [List.mem_map]
    constructor
    · rintro ⟨⟨question, index⟩, hmem, rfl⟩
      exact ⟨List.mem_zipIdx_iff_getElem?.mp hmem, rfl⟩
    · rintro ⟨hquestion, hans⟩
      obtain ⟨index, question, answer⟩ := turn
      exact ⟨(question, index), List.mem_zipIdx_iff_getElem?.mpr hquestion,
        congrArg (QuestionTurn.mk index question) hans.symm⟩

/-- The turns pair the learner's words with the questions exactly when the learner speaks in
one stretch between a question and the next one. -/
theorem answers_paired_iff (hgap : 1 ≤ gapMs) :
    (∃ turns, segmentQuestions microphone systemAudio gapMs = .ok turns ∧
      Paired microphone systemAudio gapMs turns) ↔ OneStretch microphone systemAudio gapMs := by
  obtain ⟨turns, hturns, hquestions, hindexed, hmem⟩ := segmentQuestions_ok hmicrophone hsystem gapMs
  constructor
  · rintro ⟨_, hsame, hpaired⟩ index hindex run hrun word hword hfollows
    cases Except.ok.inj (hturns.symm.trans hsame)
    let question := (remoteUtterances gapMs systemAudio)[index]
    have hquestion : (remoteUtterances gapMs systemAudio)[index]? = some question :=
      List.getElem?_eq_getElem hindex
    have hturn := (hmem ⟨index, question, answerAt microphone systemAudio gapMs index question⟩).mpr
      ⟨hquestion, rfl⟩
    have hcovers : ∀ own ∈ stretches gapMs microphone, ∀ spoken ∈ own,
        Follows (remoteUtterances gapMs systemAudio) index spoken.startMs →
          answerAt microphone systemAudio gapMs index question = some (utteranceOf .user own) ∧
            Follows (remoteUtterances gapMs systemAudio) index (firstStart own) := by
      intro own hown spoken hspoken hbehind
      obtain ⟨answer, hanswer, hwithin⟩ := hpaired.answered _ hturn spoken
        (mem_iff_stretch.mpr ⟨own, hown, hspoken⟩) hbehind
      obtain ⟨found, hfound, rfl, hstarts⟩ := answerAt_spec hquestion hanswer
      have hsame := stretch_of_within hmicrophone hgap hown hfound hspoken hwithin
      subst hsame
      exact ⟨hanswer, hstarts⟩
    obtain ⟨hanswer, hstarts⟩ := hcovers run hrun word hword hfollows
    refine ⟨hstarts, fun other hother second hsecond hbehind => ?_⟩
    obtain ⟨hanswer', -⟩ := hcovers other hother second hsecond hbehind
    apply stretch_of_within hmicrophone hgap hother hrun hsecond
    have hutterance := Option.some.inj (hanswer'.symm.trans hanswer)
    rw [← hutterance]
    exact ⟨(firstStart_spec hmicrophone hother).2 second hsecond, le_lastEnd hsecond⟩
  · intro hstretch
    refine ⟨turns, hturns, hquestions, hindexed, ?_, ?_⟩
    · intro turn hturn word hword hfollows
      obtain ⟨hquestion, hanswer⟩ := (hmem turn).mp hturn
      obtain ⟨run, hrun, hin⟩ := mem_iff_stretch.mp hword
      obtain ⟨hstarts, honly⟩ := hstretch turn.index (List.getElem?_eq_some_iff.mp hquestion).1 run
        hrun word hin hfollows
      obtain ⟨answer, hfound⟩ := exists_answerAt hquestion hrun hstarts
      obtain ⟨other, hother, rfl, hbehind⟩ := answerAt_spec hquestion hfound
      obtain ⟨first, hfirst, heq⟩ := (firstStart_spec hmicrophone hother).1
      have hsame := honly other hother first hfirst (heq ▸ hbehind)
      subst hsame
      exact ⟨_, hanswer.trans hfound, (firstStart_spec hmicrophone hrun).2 word hin,
        le_lastEnd hin⟩
    · intro first hfirst second hsecond hne answer hanswer other hother word hword hboth
      obtain ⟨hquestion, hfirst_answer⟩ := (hmem first).mp hfirst
      obtain ⟨hquestion', hsecond_answer⟩ := (hmem second).mp hsecond
      obtain ⟨run, hrun, rfl, hstarts⟩ := answerAt_spec hquestion (hfirst_answer ▸ hanswer)
      obtain ⟨run', hrun', rfl, hstarts'⟩ := answerAt_spec hquestion' (hsecond_answer ▸ hother)
      obtain ⟨own, hown, hin⟩ := mem_iff_stretch.mp hword
      have hsame := stretch_of_within hmicrophone hgap hown hrun hin hboth.1
      have hsame' := stretch_of_within hmicrophone hgap hown hrun' hin hboth.2
      subst hsame
      subst hsame'
      have hapart : ∀ {i j : Nat} {question : Utterance}, i < j →
          (remoteUtterances gapMs systemAudio)[j]? = some question →
          Follows (remoteUtterances gapMs systemAudio) i (firstStart own) →
          ¬Follows (remoteUtterances gapMs systemAudio) j (firstStart own) := by
        intro i j question hlt hj hi hbehind
        have hlength := (List.getElem?_eq_some_iff.mp hj).1
        have hnext := List.getElem?_eq_some_iff.mpr ⟨lt_of_le_of_lt hlt hlength, rfl⟩
        have hle := next_start_le hsystem hlt hnext hj
        have hbefore := hi.2 _ hnext
        have hafter := hbehind.1 _ hj
        omega
      rcases Nat.lt_trichotomy first.index second.index with hlt | heq | hlt
      · exact hapart hlt hquestion' hstarts hstarts'
      · apply hne
        obtain ⟨index, question, _⟩ := first
        obtain ⟨index', question', _⟩ := second
        simp only at heq hquestion hquestion' hfirst_answer hsecond_answer
        subst heq
        cases Option.some.inj (hquestion.symm.trans hquestion')
        rw [hfirst_answer, hsecond_answer]
      · exact hapart hlt hquestion hstarts' hstarts

end Turns

def sampleWord (startMs endMs : Nat) : RecognizedWord := ⟨"word", startMs, endMs⟩

def sampleQuestion : List RecognizedWord := [sampleWord 0 1000]

theorem inSequence_sample : InSequence sampleQuestion := ⟨by decide, by decide⟩

theorem answers_paired_sample :
    ∃ turns, segmentQuestions [sampleWord 1500 2000] sampleQuestion 2000 = .ok turns ∧
      Paired [sampleWord 1500 2000] sampleQuestion 2000 turns := by
  apply (answers_paired_iff ⟨by decide, by decide⟩ inSequence_sample (by decide)).mpr
  intro index _ run hrun word hword hfollows
  have hone : ∀ other ∈ stretches 2000 [sampleWord 1500 2000], other = [sampleWord 1500 2000] := by
    decide
  refine ⟨?_, fun other hother _ _ _ => (hone other hother).trans (hone run hrun).symm⟩
  rw [hone run hrun] at hword ⊢
  rwa [List.mem_singleton.mp hword] at hfollows

/-- A pause of three seconds inside the answer loses what comes behind it. -/
theorem pause_cuts_answer :
    ¬∃ turns, segmentQuestions [sampleWord 1500 2000, sampleWord 5000 6000] sampleQuestion 2000 =
        .ok turns ∧
      Paired [sampleWord 1500 2000, sampleWord 5000 6000] sampleQuestion 2000 turns := by
  rintro ⟨turns, hturns, hpaired⟩
  have hrun : turns = [⟨0, ⟨.remote, 0, 1000⟩, some ⟨.user, 1500, 2000⟩⟩] :=
    (Except.ok.inj (hturns.symm.trans rfl))
  obtain ⟨answer, hanswer, -, hend⟩ := hpaired.answered _ (hrun ▸ List.mem_singleton_self _)
    (sampleWord 5000 6000) (by decide) ⟨by decide, by decide⟩
  cases hanswer
  exact absurd hend (by decide)

end TamForge.Interviews
