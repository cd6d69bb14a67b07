import TamForge.Practice.Session

/-!
# What a command does to the model

The invariant of the model by itself: the turn stands at a question of the
round, its follow-ups are counted, a request waits only while an answer is
committed, and a follow-up that waits for its answer is about the last one.
-/

namespace TamForge.Practice

open PracticeModel

variable {m : PracticeModel} {turn : InterviewerTurn} {question : PracticeQuestion}
  {answer : PracticeAnswer} {request : Nat} {text : String}

/-! ## Reading what was spoken -/

def followUpsSince (spoken : List Utterance) : Nat :=
  spoken.foldl (fun count utterance =>
    match utterance with
    | .question _ => 0
    | .repeated _ => count
    | .followUp _ _ => count + 1) 0

def lastFollowUp (spoken : List Utterance) : Option (String × Nat) :=
  spoken.foldl (fun last utterance =>
    match utterance with
    | .question _ | .repeated _ => last
    | .followUp text about => some (text, about)) none

@[simp] theorem followUpsSince_question (spoken : List Utterance) (text : String) :
    followUpsSince (spoken ++ [.question text]) = 0 := by
  simp [followUpsSince]

@[simp] theorem followUpsSince_repeated (spoken : List Utterance) (text : String) :
    followUpsSince (spoken ++ [.repeated text]) = followUpsSince spoken := by
  simp [followUpsSince]

@[simp] theorem followUpsSince_followUp (spoken : List Utterance) (text : String) (about : Nat) :
    followUpsSince (spoken ++ [.followUp text about]) = followUpsSince spoken + 1 := by
  simp [followUpsSince]

@[simp] theorem lastFollowUp_question (spoken : List Utterance) (text : String) :
    lastFollowUp (spoken ++ [.question text]) = lastFollowUp spoken := by
  simp [lastFollowUp]

@[simp] theorem lastFollowUp_repeated (spoken : List Utterance) (text : String) :
    lastFollowUp (spoken ++ [.repeated text]) = lastFollowUp spoken := by
  simp [lastFollowUp]

@[simp] theorem lastFollowUp_followUp (spoken : List Utterance) (text : String) (about : Nat) :
    lastFollowUp (spoken ++ [.followUp text about]) = some (text, about) := by
  simp [lastFollowUp]

@[simp] theorem questionsAsked_repeated (spoken : List Utterance) (text : String) :
    questionsAsked (spoken ++ [.repeated text]) = questionsAsked spoken := by
  simp [questionsAsked, isQuestion]

/-! ## The invariant -/

structure TurnInv (m : PracticeModel) (turn : InterviewerTurn) : Prop where
  bank : turn.questionBank = m.questions.map PracticeQuestion.prompt
  counted : turn.followUpsAsked = followUpsSince m.spoken
  bounded : turn.followUpsAsked ≤ InterviewerTurn.maxFollowUps
  asked : turn.phase = .finished ∨
    (turn.phase = .awaitingAnswer ∨ turn.phase = .answerCommitted) ∧
      0 ≤ turn.askedIndex ∧ turn.askedIndex.toNat < m.questions.length

structure ModelInv (m : PracticeModel) : Prop where
  turn : ∀ turn, m.turn = some turn → TurnInv m turn
  silent : m.turn = none → followUpsSince m.spoken = 0
  request : m.followUpRequest ≠ none → m.phase = some .answerCommitted
  parent : m.phase = some .awaitingAnswer → ∀ text, m.currentFollowUp = some text →
    ∃ about, lastFollowUp m.spoken = some (text, about) ∧
      m.answers.getLast?.map PracticeAnswer.recordingId = some about

theorem ModelInv.followUps_le (h : ModelInv m) :
    followUpsSince m.spoken ≤ InterviewerTurn.maxFollowUps := by
  cases hturn : m.turn with
  | none =>
    rw [h.silent hturn]
    exact Nat.zero_le _
  | some turn =>
    rw [← (h.turn turn hturn).counted]
    exact (h.turn turn hturn).bounded

theorem ModelInv.exists_current (h : ModelInv m)
    (hph : m.phase = some .awaitingAnswer ∨ m.phase = some .answerCommitted) :
    ∃ question, m.current = some question := by
  cases hturn : m.turn with
  | none => simp [phase, hturn] at hph
  | some turn =>
    have hasked := (h.turn turn hturn).asked
    have hunfin : turn.phase ≠ .finished := by
      intro hfin
      simp [phase, hturn, hfin] at hph
    rcases hasked with hfin | ⟨-, hpos, hlt⟩
    · exact absurd hfin hunfin
    · have hrange : ¬(turn.phase = .finished ∨ turn.askedIndex < 0) := by
        rintro (hfin | hneg)
        · exact hunfin hfin
        · omega
      refine ⟨m.questions[turn.askedIndex.toNat], ?_⟩
      simp only [current, hturn, if_neg hrange]
      exact List.getElem?_eq_getElem hlt

theorem ModelInv.congr {m' : PracticeModel} (h : ModelInv m) (hturn : m'.turn = m.turn)
    (hquestions : m'.questions = m.questions) (hspk : m'.spoken = m.spoken)
    (hreq : m'.followUpRequest ≠ none → m'.phase = some .answerCommitted)
    (hfollowUp : m'.currentFollowUp = m.currentFollowUp) (hanss : m'.answers = m.answers) :
    ModelInv m' := by
  have hph : m'.phase = m.phase := by rw [phase, hturn, phase]
  refine ⟨?_, ?_, hreq, ?_⟩
  · intro turn hsome
    rw [hturn] at hsome
    obtain ⟨hbank, hcnt, hbounded, hasked⟩ := h.turn turn hsome
    refine ⟨?_, ?_, hbounded, ?_⟩
    · rw [hquestions]
      exact hbank
    · rw [hspk]
      exact hcnt
    · rw [hquestions]
      exact hasked
  · rw [hturn, hspk]
    exact h.silent
  · rw [hph, hfollowUp, hspk, hanss]
    exact h.parent

/-! ## Asking -/

/-- `start` with questions to ask asks the first one. -/
theorem start_cons (m : PracticeModel) (first : PracticeQuestion) (rest : List PracticeQuestion) :
    ∃ turn, turn.phase = .awaitingAnswer ∧ turn.askedIndex = 0 ∧ turn.followUpsAsked = 0 ∧
      turn.questionBank = (first :: rest).map PracticeQuestion.prompt ∧
      m.start (first :: rest) = { abandonFollowUp { m with
        questions := first :: rest
        answers := []
        revealedReference := none
        message := none } with
        turn := some turn
        spoken := m.spoken ++ [.question first.prompt] } := by
  refine ⟨⟨.awaitingAnswer, 0, 0, [first.prompt], (first :: rest).map PracticeQuestion.prompt⟩,
    rfl, rfl, rfl, rfl, ?_⟩
  simp [start, askNext, InterviewerTurn.new, InterviewerTurn.ask, say, abandonFollowUp]

theorem start_nil (m : PracticeModel) : m.start [] =
    { m with message := some "Import your answer bank first: there is nothing to ask yet." } := rfl

theorem ModelInv.start (h : ModelInv m) (picked : List PracticeQuestion) :
    ModelInv (m.start picked) := by
  cases picked with
  | nil =>
    rw [start_nil]
    exact h.congr rfl rfl rfl h.request rfl rfl
  | cons first rest =>
    obtain ⟨turn, hph, hindex, hasked, hbank, hstart⟩ := start_cons m first rest
    rw [hstart]
    refine ⟨?_, by simp, by simp [abandonFollowUp], by simp [abandonFollowUp]⟩
    rintro turn' ⟨⟩
    refine ⟨hbank, by simp [hasked], by simp [hasked], Or.inr ⟨Or.inl hph, ?_⟩⟩
    rw [hindex]
    simp [abandonFollowUp]

/-- `next` asks the next question, or the round is over. -/
theorem next_cases (h : ModelInv m) (hmove : m.canMoveOn = true) :
    (∃ turn text, turn.phase = .awaitingAnswer ∧ turn.followUpsAsked = 0 ∧
      turn.questionBank = m.questions.map PracticeQuestion.prompt ∧ 0 ≤ turn.askedIndex ∧
      turn.askedIndex.toNat < m.questions.length ∧
      m.next = { m.abandonFollowUp with
        revealedReference := none
        turn := some turn
        spoken := m.spoken ++ [.question text] }) ∨
      m.next = { m.abandonFollowUp with
        revealedReference := none
        turn := m.turn.map InterviewerTurn.finish } := by
  cases hturn : m.turn with
  | none => simp [canMoveOn, phase, hturn] at hmove
  | some turn =>
    have hph : turn.phase = .answerCommitted := by
      simpa [canMoveOn, phase, hturn] using hmove
    obtain ⟨hbank, -, -, hasked⟩ := h.turn turn hturn
    have hpos : 0 ≤ turn.askedIndex := by
      rcases hasked with hfin | ⟨-, hpos, -⟩
      · rw [hph] at hfin
        cases hfin
      · exact hpos
    cases hnext : turn.questionBank[(turn.askedIndex + 1).toNat]? with
    | none =>
      refine Or.inr ?_
      simp [next, hmove, askNext, abandonFollowUp, hturn, InterviewerTurn.ask, hph, hnext,
        PracticeModel.finish]
    | some text =>
      have hlt : (turn.askedIndex + 1).toNat < m.questions.length := by
        obtain ⟨hlt, -⟩ := List.getElem?_eq_some_iff.mp hnext
        rw [hbank, List.length_map] at hlt
        exact hlt
      refine Or.inl ⟨{ turn with
        phase := .awaitingAnswer
        askedIndex := turn.askedIndex + 1
        followUpsAsked := 0
        spoken := turn.spoken ++ [text] }, text, rfl, rfl, hbank, ?_, hlt, ?_⟩
      · show 0 ≤ turn.askedIndex + 1
        omega
      · simp [next, hmove, askNext, abandonFollowUp, hturn, InterviewerTurn.ask, hph, hnext,
          say]

theorem ModelInv.finished {m' : PracticeModel} (h : ModelInv m)
    (hturn : m'.turn = m.turn.map InterviewerTurn.finish) (hquestions : m'.questions = m.questions)
    (hspk : m'.spoken = m.spoken) (hreq : m'.followUpRequest = none)
    (hfollowUp : m'.currentFollowUp = none) : ModelInv m' := by
  refine ⟨?_, ?_, by simp [hreq], by simp [hfollowUp]⟩
  · intro turn hsome
    rw [hturn] at hsome
    obtain ⟨old, hold, rfl⟩ := Option.map_eq_some_iff.mp hsome
    obtain ⟨hbank, hcnt, hbounded, -⟩ := h.turn old hold
    exact ⟨by rw [hquestions]; exact hbank, by rw [hspk]; exact hcnt, hbounded, Or.inl rfl⟩
  · intro hnone
    rw [hturn, Option.map_eq_none_iff] at hnone
    rw [hspk]
    exact h.silent hnone

theorem ModelInv.next (h : ModelInv m) : ModelInv m.next := by
  by_cases hmove : m.canMoveOn = true
  · rcases next_cases h hmove with
      ⟨turn, text, hph, hasked, hbank, hpos, hlt, hnext⟩ | hnext
    · rw [hnext]
      refine ⟨?_, by simp, by simp [abandonFollowUp], by simp [abandonFollowUp]⟩
      rintro turn' ⟨⟩
      exact ⟨hbank, by simp [hasked], by simp [hasked], Or.inr ⟨Or.inl hph, hpos, hlt⟩⟩
    · rw [hnext]
      exact h.finished rfl rfl rfl rfl rfl
  · rw [PracticeModel.next, if_neg hmove]
    exact h

theorem ModelInv.stop (h : ModelInv m) : ModelInv m.stop := by
  unfold PracticeModel.stop
  split
  · exact h
  · exact h.finished rfl rfl rfl rfl rfl

/-! ## Speaking and answering -/

theorem repeatQuestion_cases (m : PracticeModel) :
    m.repeatQuestion = m ∨
      m.isAnswering = false ∧ ∃ text, m.repeatQuestion = m.say (.repeated text) := by
  unfold PracticeModel.repeatQuestion
  split
  · exact Or.inl rfl
  · split
    · exact Or.inl rfl
    · rename_i prompt _ hsilent
      exact Or.inr ⟨by simpa using hsilent, prompt, rfl⟩

theorem ModelInv.repeatQuestion (h : ModelInv m) : ModelInv m.repeatQuestion := by
  rcases repeatQuestion_cases m with hsame | ⟨-, text, hsaid⟩
  · rw [hsame]
    exact h
  · rw [hsaid]
    refine ⟨?_, ?_, h.request, ?_⟩
    · intro turn hturn
      obtain ⟨hbank, hcnt, hbounded, hasked⟩ := h.turn turn hturn
      exact ⟨hbank, by simp [say, hcnt], hbounded, hasked⟩
    · intro hnone
      simpa [say] using h.silent hnone
    · intro hph text' hfollowUp
      simpa [say] using h.parent hph text' hfollowUp

theorem ModelInv.revealReference (h : ModelInv m) : ModelInv m.revealReference := by
  unfold PracticeModel.revealReference
  split
  · exact h
  · split
    · exact h.congr rfl rfl rfl h.request rfl rfl
    · exact h

theorem consideredAnswer_some (h : m.consideredAnswer = some answer) :
    m.phase = some .answerCommitted ∧ m.answers.getLast? = some answer ∧
      m.current = some answer.question := by
  simp only [consideredAnswer, Option.bind_eq_bind, Option.bind_eq_some_iff] at h
  obtain ⟨turn, hturn, question, hcur, last, hlast, h⟩ := h
  split at h
  · rename_i hgrd
    cases h
    simp only [Bool.and_eq_true, beq_iff_eq] at hgrd
    obtain ⟨⟨⟨-, hph⟩, -⟩, hques⟩ := hgrd
    refine ⟨?_, hlast, ?_⟩
    · simp [phase, hturn, hph]
    · rw [hcur, hques]
  · cases h

theorem ModelInv.considering (h : ModelInv m) (hph : m.phase = some .answerCommitted)
    (request : Nat) : ModelInv (m.considering request) :=
  h.congr rfl rfl rfl (fun _ => hph) rfl rfl

/-- The answer to a request is spoken when the request still stands and a
follow-up remains. -/
theorem followUpAnswered_cases (m : PracticeModel) (request : Nat) (answer : PracticeAnswer)
    (reply : Option String) :
    m.followUpAnswered request answer reply = m ∨
      m.followUpRequest = some request ∧
        (m.followUpAnswered request answer reply =
            { m with followUpRequest := none, isPreparingFollowUp := false } ∨
          ∃ turn text, m.turn = some turn ∧ turn.phase = .answerCommitted ∧
            turn.followUpsAsked < InterviewerTurn.maxFollowUps ∧
            m.followUpAnswered request answer reply =
              { m with
                followUpRequest := none
                isPreparingFollowUp := false
                turn := some { turn with
                  phase := .awaitingAnswer
                  followUpsAsked := turn.followUpsAsked + 1
                  spoken := turn.spoken ++ [text] }
                revealedReference := none
                currentFollowUp := some text
                askedFollowUps := m.askedFollowUps ++ [text]
                spoken := m.spoken ++ [.followUp text answer.recordingId] }) := by
  by_cases hreq : m.followUpRequest = some request
  · refine Or.inr ⟨hreq, ?_⟩
    cases reply with
    | none => simp [followUpAnswered, hreq]
    | some text =>
      cases hturn : m.turn with
      | none => simp [followUpAnswered, hreq, hturn]
      | some turn =>
        by_cases hph : turn.phase = .answerCommitted
        · by_cases hleft : InterviewerTurn.maxFollowUps ≤ turn.followUpsAsked
          · simp [followUpAnswered, hreq, hturn, InterviewerTurn.askFollowUp, hph, hleft]
          · refine Or.inr ⟨turn, text, rfl, hph, Nat.lt_of_not_le hleft, ?_⟩
            simp [followUpAnswered, hreq, hturn, InterviewerTurn.askFollowUp, hph, hleft,
              say]
        · simp [followUpAnswered, hreq, hturn, InterviewerTurn.askFollowUp, hph]
  · exact Or.inl (by simp [followUpAnswered, hreq])

theorem ModelInv.followUpAnswered (h : ModelInv m)
    (hlast : m.followUpRequest = some request → m.answers.getLast? = some answer)
    (reply : Option String) : ModelInv (m.followUpAnswered request answer reply) := by
  rcases followUpAnswered_cases m request answer reply with
    hsame | ⟨hreq, hquiet | ⟨turn, text, hturn, hph, hleft, hsaid⟩⟩
  · rw [hsame]
    exact h
  · rw [hquiet]
    exact h.congr rfl rfl rfl (by simp) rfl rfl
  · obtain ⟨hbank, hcnt, -, hasked⟩ := h.turn turn hturn
    rw [hsaid]
    refine ⟨?_, by simp, by simp, ?_⟩
    · rintro turn' ⟨⟩
      refine ⟨hbank, by simp [hcnt], hleft, Or.inr ⟨Or.inl rfl, ?_⟩⟩
      rcases hasked with hfin | ⟨-, hrange⟩
      · rw [hph] at hfin
        cases hfin
      · exact hrange
    · rintro - text' ⟨⟩
      exact ⟨answer.recordingId, by simp, by simp [hlast hreq]⟩

/-- `endAnswer` commits the answer that is awaited. -/
theorem answerEnded_some (hturn : m.turn = some turn) (hph : turn.phase = .awaitingAnswer)
    (question : PracticeQuestion) (id : Nat) :
    m.answerEnded question (some id) = { m with
      isAnswering := false
      turn := some { turn with phase := .answerCommitted }
      answers := m.answers ++ [⟨question, id, m.currentFollowUp,
        if m.currentFollowUp.isNone then none
        else m.answers.getLast?.map PracticeAnswer.recordingId⟩] } := by
  simp [answerEnded, commitAnswer, hturn, InterviewerTurn.commitAnswer, hph]

theorem ModelInv.answerEnded (h : ModelInv m) (hturn : m.turn = some turn)
    (hph : turn.phase = .awaitingAnswer) (question : PracticeQuestion) (id : Nat) :
    ModelInv (m.answerEnded question (some id)) := by
  obtain ⟨hbank, hcnt, hbounded, hasked⟩ := h.turn turn hturn
  rw [answerEnded_some hturn hph]
  refine ⟨?_, by simp, fun _ => rfl, ?_⟩
  · rintro turn' ⟨⟩
    refine ⟨hbank, hcnt, hbounded, ?_⟩
    rcases hasked with hfin | ⟨-, hrange⟩
    · exact Or.inl (by rw [hph] at hfin; cases hfin)
    · exact Or.inr ⟨Or.inr rfl, hrange⟩
  · intro hawaiting
    simp [phase] at hawaiting

end TamForge.Practice
