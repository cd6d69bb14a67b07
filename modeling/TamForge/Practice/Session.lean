import TamForge.Practice.Interviewer
import TamForge.ProofSupport.Run

/-!
# Practice sessions

The commands of one `InterviewPracticeModel` and the recorder they await, on the
main actor: a command runs until it awaits, and any other may run before it goes
on.  The recorder is the part of `RecordingCoordinator` behind its phase: what
`start` and `stop` write before and after they await, and the recordings that
break off by themselves.
-/

namespace TamForge.Practice

open ProofSupport

/-! ## The recorder -/

/-- `RecordingPhase`, without what the screen shows about it. -/
inductive RecordingPhase
  | idle
  | preflighting
  | blocked
  | recording (id : Nat)
  | stopping (id : Nat)
  | sealed (id : Nat)
  | needsAttention (id : Nat)

def RecordingPhase.isActive : RecordingPhase → Bool
  | preflighting | recording _ | stopping _ => true
  | idle | blocked | sealed _ | needsAttention _ => false

/-- `brokenOff` says that the recording being stopped broke off by itself: the
capture failed, a device was lost, or the limit was reached. -/
structure Recorder where
  phase : RecordingPhase
  lastRecordingId : Option Nat
  nextId : Nat
  brokenOff : Bool

def Recorder.active (recorder : Recorder) : Bool :=
  recorder.phase.isActive && !recorder.brokenOff

/-! ## Commands under way -/

/-- Where `beginAnswer` stands.  `before` is the recorder's last recording when
the command was given, `question` the question that was current. -/
inductive Beginning
  /-- `start` waits for the uploads to pause. -/
  | pausing
  | preflighting
  /-- The spool exists and the source is being started. -/
  | opening (id : Nat)
  /-- `start` has returned. -/
  | returned
deriving DecidableEq

/-- Where `endAnswer` stands. -/
inductive Ending
  | stopping (id : Nat)
  /-- `stop` has returned. -/
  | returned
deriving DecidableEq

/-- What a command under way has in its local variables. -/
inductive Task
  | idle
  | beginning (before : Option Nat) (question : Option PracticeQuestion) (stage : Beginning)
  | ending (question : PracticeQuestion) (stage : Ending)
  /-- `asked` is how many questions had been asked when the request was made. -/
  | considering (request : Nat) (answer : PracticeAnswer) (asked : Nat)
deriving DecidableEq

/-- `answering` records which question `beginAnswer` began a recording for, and
that recording, until `endAnswer` has ended it. -/
structure World where
  model : PracticeModel
  recorder : Recorder
  tasks : Nat → Task
  nextRequest : Nat
  answering : Option (PracticeQuestion × Nat)

namespace World

def setTask (w : World) (i : Nat) (task : Task) : World :=
  { w with tasks := fun j => if j = i then task else w.tasks j }

def setModel (w : World) (model : PracticeModel) : World := { w with model := model }

def setRecorder (w : World) (recorder : Recorder) : World := { w with recorder := recorder }

@[simp] theorem setTask_self (w : World) (i : Nat) (task : Task) :
    (w.setTask i task).tasks i = task := by
  simp [setTask]

theorem setTask_of_ne (w : World) {i j : Nat} (task : Task) (h : j ≠ i) :
    (w.setTask i task).tasks j = w.tasks j := by
  simp [setTask, h]

end World

/-! ## Actions -/

inductive Action
  | start (picked : List PracticeQuestion)
  | repeatQuestion
  | revealReference
  | next
  | stop
  | setFollowUpsEnabled (enabled : Bool)
  | beginAnswer (i : Nat)
  | endAnswer (i : Nat)
  | considerFollowUp (i : Nat)
  /-- What the recorder does for the task `i`. -/
  | preflights (i : Nat)
  | blocks (i : Nat)
  | creates (i : Nat)
  | records (i : Nat)
  | fails (i : Nat)
  | seals (i : Nat) (sealed : Bool)
  /-- The recording breaks off, and the recorder is done with it. -/
  | breaksOff
  | settles
  /-- The command of the task `i` goes on. -/
  | answerBegun (i : Nat)
  | answerEnded (i : Nat)
  | followUpAnswered (i : Nat) (text : Option String)

def isQuestion : Utterance → Bool
  | .question _ => true
  | .repeated _ | .followUp _ _ => false

def questionsAsked (spoken : List Utterance) : Nat := spoken.countP isQuestion

/-- `beginAnswer` up to the recorder's first await. -/
def beginAnswer (w : World) (i : Nat) : World :=
  if w.model.canBeginAnswer then
    w.setTask i (.beginning w.recorder.lastRecordingId w.model.current
      (if w.recorder.phase.isActive then .returned else .pausing))
  else w

/-- `endAnswer` up to the recorder's first await. -/
def endAnswer (w : World) (i : Nat) : World :=
  match w.model.current with
  | none => w
  | some question =>
    if w.model.isAnswering && w.model.hasRecorder then
      match w.recorder.phase with
      | .recording id =>
        (w.setRecorder { w.recorder with phase := .stopping id }).setTask i
          (.ending question (.stopping id))
      | _ => w.setTask i (.ending question .returned)
    else w

/-- `considerFollowUp` up to its await. -/
def considerFollowUp (w : World) (i : Nat) : World :=
  match w.model.consideredAnswer with
  | none => w
  | some answer =>
    { (w.setModel (w.model.considering w.nextRequest)).setTask i
        (.considering w.nextRequest answer (questionsAsked w.model.spoken)) with
      nextRequest := w.nextRequest + 1 }

/-- The rest of `beginAnswer`. -/
def finishBeginning (w : World) (i : Nat) (before : Option Nat)
    (question : Option PracticeQuestion) : World :=
  let recording := w.recorder.phase.isActive && w.recorder.lastRecordingId != before
  { (w.setModel (w.model.answerBegun recording)).setTask i .idle with
    answering :=
      if recording then question.bind fun question =>
        w.recorder.lastRecordingId.map fun id => (question, id)
      else w.answering }

/-- The rest of `endAnswer`. -/
def finishEnding (w : World) (i : Nat) (question : PracticeQuestion) : World :=
  { (w.setModel (w.model.answerEnded question w.recorder.lastRecordingId)).setTask i .idle with
    answering := none }

def act (w : World) : Action → Option World
  | .start picked => some (w.setModel (w.model.start picked))
  | .repeatQuestion => some (w.setModel w.model.repeatQuestion)
  | .revealReference => some (w.setModel w.model.revealReference)
  | .next => some (w.setModel w.model.next)
  | .stop => some (w.setModel w.model.stop)
  | .setFollowUpsEnabled enabled => some (w.setModel { w.model with followUpsEnabled := enabled })
  | .beginAnswer i => if w.tasks i = .idle then some (beginAnswer w i) else none
  | .endAnswer i => if w.tasks i = .idle then some (endAnswer w i) else none
  | .considerFollowUp i => if w.tasks i = .idle then some (considerFollowUp w i) else none
  | .preflights i =>
    match w.tasks i with
    | .beginning before question .pausing =>
      some ((w.setRecorder { w.recorder with phase := .preflighting, brokenOff := false })
        |>.setTask i (.beginning before question .preflighting))
    | _ => none
  | .blocks i =>
    match w.tasks i with
    | .beginning before question .preflighting =>
      some ((w.setRecorder { w.recorder with phase := .blocked }).setTask i
        (.beginning before question .returned))
    | _ => none
  | .creates i =>
    match w.tasks i with
    | .beginning before question .preflighting =>
      some ((w.setRecorder { w.recorder with
        lastRecordingId := some w.recorder.nextId
        nextId := w.recorder.nextId + 1 }).setTask i
          (.beginning before question (.opening w.recorder.nextId)))
    | _ => none
  | .records i =>
    match w.tasks i with
    | .beginning before question (.opening id) =>
      some ((w.setRecorder { w.recorder with phase := .recording id }).setTask i
        (.beginning before question .returned))
    | _ => none
  | .fails i =>
    match w.tasks i with
    | .beginning before question .preflighting =>
      some ((w.setRecorder { w.recorder with
        phase := .needsAttention w.recorder.nextId
        nextId := w.recorder.nextId + 1 }).setTask i (.beginning before question .returned))
    | .beginning before question (.opening id) =>
      some ((w.setRecorder { w.recorder with phase := .needsAttention id }).setTask i
        (.beginning before question .returned))
    | _ => none
  | .seals i sealed =>
    match w.tasks i with
    | .ending question (.stopping id) =>
      some ((w.setRecorder { w.recorder with
        phase := if sealed then .sealed id else .needsAttention id }).setTask i
          (.ending question .returned))
    | _ => none
  | .breaksOff =>
    match w.recorder.phase with
    | .recording id =>
      some (w.setRecorder { w.recorder with phase := .stopping id, brokenOff := true })
    | _ => none
  | .settles =>
    match w.recorder.phase with
    | .stopping id =>
      if w.recorder.brokenOff then
        some (w.setRecorder { w.recorder with phase := .needsAttention id })
      else none
    | _ => none
  | .answerBegun i =>
    match w.tasks i with
    | .beginning before question .returned => some (finishBeginning w i before question)
    | _ => none
  | .answerEnded i =>
    match w.tasks i with
    | .ending question .returned => some (finishEnding w i question)
    | _ => none
  | .followUpAnswered i text =>
    match w.tasks i with
    | .considering request answer _ =>
      some ((w.setModel (w.model.followUpAnswered request answer text)).setTask i .idle)
    | _ => none

def Step (w : World) (action : Action) (w' : World) : Prop := act w action = some w'

def World.new (hasRecorder hasFollowUps followUpsEnabled : Bool) : World where
  model := {
    questions := []
    turn := none
    isAnswering := false
    answers := []
    revealedReference := none
    message := none
    currentFollowUp := none
    isPreparingFollowUp := false
    followUpsEnabled := followUpsEnabled
    askedFollowUps := []
    followUpRequest := none
    hasRecorder := hasRecorder
    hasFollowUps := hasFollowUps
    spoken := [] }
  recorder := { phase := .idle, lastRecordingId := none, nextId := 0, brokenOff := false }
  tasks := fun _ => .idle
  nextRequest := 0
  answering := none

def PracticeRun (hasRecorder hasFollowUps followUpsEnabled : Bool)
    (trace : List (Transition World Action)) (w : World) : Prop :=
  Run Step (World.new hasRecorder hasFollowUps followUpsEnabled) trace w

end TamForge.Practice
