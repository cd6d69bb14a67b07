import Mathlib.Data.List.Basic

/-!
# The practice interviewer

`InterviewerTurn` and the state of `InterviewPracticeModel`, with what each of
its commands does before it awaits anything and after.  What was spoken is kept
with the reason it was spoken for.
-/

namespace TamForge.Practice

/-! ## Turns -/

inductive InterviewerPhase
  | awaitingQuestion | speaking | awaitingAnswer | answerCommitted | finished
deriving DecidableEq

inductive InterviewerError
  | noQuestionsLeft | cannotSpeakWhileAnswering | cannotCoach | followUpLimitReached
  | answerNotInProgress | turnAlreadyCommitted

structure InterviewerTurn where
  phase : InterviewerPhase
  askedIndex : Int
  followUpsAsked : Nat
  spoken : List String
  questionBank : List String

namespace InterviewerTurn

def maxFollowUps : Nat := 2

/-- `init(context:)` -/
def new (questionBank : List String) : InterviewerTurn where
  phase := .awaitingQuestion
  askedIndex := -1
  followUpsAsked := 0
  spoken := []
  questionBank := questionBank

def ask (turn : InterviewerTurn) : Except InterviewerError (String × InterviewerTurn) :=
  if turn.phase ≠ .awaitingQuestion ∧ turn.phase ≠ .answerCommitted then
    .error .cannotSpeakWhileAnswering
  else
    let next := turn.askedIndex + 1
    match turn.questionBank[next.toNat]? with
    | none => .error .noQuestionsLeft
    | some question =>
      .ok (question, { turn with
        phase := .awaitingAnswer
        askedIndex := next
        followUpsAsked := 0
        spoken := turn.spoken ++ [question] })

def askFollowUp (turn : InterviewerTurn) (text : String) :
    Except InterviewerError (String × InterviewerTurn) :=
  if turn.phase ≠ .answerCommitted then .error .cannotSpeakWhileAnswering
  else if maxFollowUps ≤ turn.followUpsAsked then .error .followUpLimitReached
  else
    .ok (text, { turn with
      phase := .awaitingAnswer
      followUpsAsked := turn.followUpsAsked + 1
      spoken := turn.spoken ++ [text] })

def commitAnswer (turn : InterviewerTurn) : Except InterviewerError InterviewerTurn :=
  if turn.phase ≠ .awaitingAnswer then .error .answerNotInProgress
  else .ok { turn with phase := .answerCommitted }

def finish (turn : InterviewerTurn) : InterviewerTurn := { turn with phase := .finished }

end InterviewerTurn

/-! ## The model -/

structure ReferenceEntry where
  id : Nat
  heading : String
  body : String
deriving DecidableEq

structure PracticeQuestion where
  entry : ReferenceEntry
  prompt : String
deriving DecidableEq

structure PracticeAnswer where
  question : PracticeQuestion
  recordingId : Nat
  followUpQuestion : Option String
  parentRecordingId : Option Nat
deriving DecidableEq

/-- What the synthesizer was given.  A follow-up is kept with the recording of
the answer that it was asked about. -/
inductive Utterance
  | question (text : String)
  | repeated (text : String)
  | followUp (text : String) (about : Nat)

structure PracticeModel where
  questions : List PracticeQuestion
  turn : Option InterviewerTurn
  isAnswering : Bool
  answers : List PracticeAnswer
  revealedReference : Option String
  message : Option String
  currentFollowUp : Option String
  isPreparingFollowUp : Bool
  followUpsEnabled : Bool
  askedFollowUps : List String
  followUpRequest : Option Nat
  /-- Whether the model was made with a recorder and a source of follow-ups. -/
  hasRecorder : Bool
  hasFollowUps : Bool
  spoken : List Utterance

namespace PracticeModel

def phase (m : PracticeModel) : Option InterviewerPhase := m.turn.map InterviewerTurn.phase

def current (m : PracticeModel) : Option PracticeQuestion :=
  match m.turn with
  | none => none
  | some turn =>
    if turn.phase = .finished ∨ turn.askedIndex < 0 then none
    else m.questions[turn.askedIndex.toNat]?

def canBeginAnswer (m : PracticeModel) : Bool :=
  m.phase == some .awaitingAnswer && !m.isAnswering && m.hasRecorder

/-- The follow-up, or the question. -/
def spokenPrompt (m : PracticeModel) : Option String :=
  m.currentFollowUp.or (m.current.map PracticeQuestion.prompt)

def canRevealReference (m : PracticeModel) : Bool :=
  m.phase == some .answerCommitted && m.revealedReference.isNone && !m.isPreparingFollowUp

def canMoveOn (m : PracticeModel) : Bool := m.phase == some .answerCommitted

def say (m : PracticeModel) (utterance : Utterance) : PracticeModel :=
  { m with spoken := m.spoken ++ [utterance] }

def abandonFollowUp (m : PracticeModel) : PracticeModel :=
  { m with
    followUpRequest := none
    isPreparingFollowUp := false
    currentFollowUp := none
    askedFollowUps := [] }

def finish (m : PracticeModel) : PracticeModel :=
  { m with turn := m.turn.map InterviewerTurn.finish }

def askNext (m : PracticeModel) : PracticeModel :=
  match m.turn with
  | none => m
  | some turn =>
    match turn.ask with
    | .ok (question, turn) => { m with turn := some turn }.say (.question question)
    | .error _ => m.finish

/-- `start(entries:)`; `picked` is what the shuffle made of the bank's questions. -/
def start (m : PracticeModel) (picked : List PracticeQuestion) : PracticeModel :=
  if picked.isEmpty then
    { m with message := some "Import your answer bank first: there is nothing to ask yet." }
  else
    askNext { abandonFollowUp { m with
      questions := picked
      answers := []
      revealedReference := none
      message := none } with
      turn := some (InterviewerTurn.new (picked.map PracticeQuestion.prompt)) }

def repeatQuestion (m : PracticeModel) : PracticeModel :=
  match m.spokenPrompt with
  | none => m
  | some prompt => if m.isAnswering then m else m.say (.repeated prompt)

def revealReference (m : PracticeModel) : PracticeModel :=
  match m.current with
  | none => m
  | some question =>
    if m.canRevealReference then { m with revealedReference := some question.entry.body } else m

def next (m : PracticeModel) : PracticeModel :=
  if m.canMoveOn then askNext { m.abandonFollowUp with revealedReference := none } else m

def stop (m : PracticeModel) : PracticeModel :=
  if m.isAnswering then m else m.abandonFollowUp.finish

/-- `beginAnswer` once the recorder has answered. -/
def answerBegun (m : PracticeModel) (recording : Bool) : PracticeModel :=
  if recording then { m with message := none, isAnswering := true }
  else { m with
    message := some "The recording did not start. Check the Recording screen for the reason." }

def commitAnswer (m : PracticeModel) : PracticeModel :=
  match m.turn with
  | none => m
  | some turn =>
    match turn.commitAnswer with
    | .ok turn => { m with turn := some turn }
    | .error _ => m

/-- `endAnswer` once the recorder has answered: `question` was current when the
command was given, `recording` is the recorder's last one. -/
def answerEnded (m : PracticeModel) (question : PracticeQuestion) (recording : Option Nat) :
    PracticeModel :=
  let m := commitAnswer { m with isAnswering := false }
  match recording with
  | none => m
  | some id =>
    let parent := if m.currentFollowUp.isNone then none
      else m.answers.getLast?.map PracticeAnswer.recordingId
    { m with answers := m.answers ++ [⟨question, id, m.currentFollowUp, parent⟩] }

/-- The answer that `considerFollowUp` would ask about, unless its guard fails. -/
def consideredAnswer (m : PracticeModel) : Option PracticeAnswer := do
  let turn ← m.turn
  let question ← m.current
  let answer ← m.answers.getLast?
  if m.followUpsEnabled && m.hasFollowUps && m.hasRecorder &&
      turn.phase == .answerCommitted &&
      decide (turn.followUpsAsked < InterviewerTurn.maxFollowUps) && answer.question == question
  then some answer else none

/-- `considerFollowUp` before it awaits the request. -/
def considering (m : PracticeModel) (request : Nat) : PracticeModel :=
  { m with followUpRequest := some request, isPreparingFollowUp := true }

/-- `considerFollowUp` once the request about `answer` was answered, or failed,
or ran out of time. -/
def followUpAnswered (m : PracticeModel) (request : Nat) (answer : PracticeAnswer)
    (text : Option String) : PracticeModel :=
  if m.followUpRequest ≠ some request then m
  else
    let m := { m with followUpRequest := none, isPreparingFollowUp := false }
    match text, m.turn with
    | some text, some turn =>
      match turn.askFollowUp text with
      | .ok (spoken, turn) =>
        { m with
          turn := some turn
          revealedReference := none
          currentFollowUp := some spoken
          askedFollowUps := m.askedFollowUps ++ [spoken] }.say
            (.followUp spoken answer.recordingId)
      | .error _ => m
    | _, _ => m

end PracticeModel

end TamForge.Practice
