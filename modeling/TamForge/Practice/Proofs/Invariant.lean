import TamForge.Practice.Proofs.Turns

/-!
# What holds between two actions

The invariant of a session in which no command disturbs another: the recording
that a `beginAnswer` waits for is its own, an answer under way keeps its question
and its recording, and a request that still stands is about the last answer.
-/

namespace TamForge.Practice

open ProofSupport

variable {w w' : World} {i : Nat} {before : Option Nat} {begun : Option PracticeQuestion}
  {question : PracticeQuestion} {stage : Beginning} {request : Nat} {answer : PracticeAnswer}

/-! ## Undisturbed steps -/

def Task.isBeginning : Task → Bool
  | .beginning _ _ _ => true
  | .idle | .ending _ _ | .considering _ _ _ => false

def Task.isEnding : Task → Bool
  | .ending _ _ => true
  | .idle | .beginning _ _ _ | .considering _ _ _ => false

variable {task : Task}

@[simp] theorem Task.isBeginning_eq_true :
    task.isBeginning = true ↔ ∃ before begun stage, task = .beginning before begun stage := by
  cases task <;> simp [Task.isBeginning]

@[simp] theorem Task.isEnding_eq_true :
    task.isEnding = true ↔ ∃ question stage, task = .ending question stage := by
  cases task <;> simp [Task.isEnding]

/-- No `beginAnswer` is under way. -/
def NotBeginning (w : World) : Prop := ∀ i, (w.tasks i).isBeginning = false

/-- No `endAnswer` is under way. -/
def NotEnding (w : World) : Prop := ∀ i, (w.tasks i).isEnding = false

/-- The guards of the commands, as they would have to be for the commands that
are still waiting. -/
def Undisturbed (e : Transition World Action) : Prop :=
  match e.label with
  | .stop | .beginAnswer _ => NotBeginning e.before
  | .endAnswer _ => NotEnding e.before
  | .repeatQuestion => e.before.model.isAnswering = true ∨ e.before.recorder.active = false
  | .start picked => picked = [] ∨ NotBeginning e.before ∧ e.before.model.isAnswering = false
  | _ => True

/-! ## The invariant -/

structure RecorderInv (recorder : Recorder) : Prop where
  fresh : ∀ id, recorder.lastRecordingId = some id → id < recorder.nextId
  whole : recorder.phase = .preflighting ∨ (∃ id, recorder.phase = .recording id) →
    recorder.brokenOff = false

/-- The recorder while a `beginAnswer` waits for it. -/
def StageInv (recorder : Recorder) (before : Option Nat) : Beginning → Prop
  | .pausing => recorder.phase.isActive = false ∧ recorder.lastRecordingId = before
  | .preflighting => recorder.phase = .preflighting ∧ recorder.lastRecordingId = before
  | .opening id =>
    recorder.phase = .preflighting ∧ recorder.lastRecordingId = some id ∧ before ≠ some id
  | .returned =>
    recorder.lastRecordingId = before ∧ recorder.active = false ∨
      ∃ id, recorder.lastRecordingId = some id ∧ before ≠ some id ∧
        (recorder.phase = .recording id ∨ recorder.active = false)

structure BeginningInv (w : World) (before : Option Nat) (begun : Option PracticeQuestion)
    (stage : Beginning) : Prop where
  quiet : w.model.isAnswering = false
  awaiting : w.model.phase = some .awaitingAnswer
  current : begun = w.model.current
  recorder : w.model.hasRecorder = true
  stage : StageInv w.recorder before stage

/-- The recorder while an `endAnswer` waits for it. -/
def StopInv (recorder : Recorder) : Ending → Prop
  | .stopping id => recorder.phase = .stopping id ∧ recorder.brokenOff = false
  | .returned => recorder.active = false

structure EndingInv (w : World) (question : PracticeQuestion) (stage : Ending) : Prop where
  answering : w.model.isAnswering = true
  current : w.model.current = some question
  stage : StopInv w.recorder stage

/-- The answer under way is to the current question, and its recording is the
recorder's last. -/
structure AnsweringInv (w : World) (question : PracticeQuestion) (id : Nat) : Prop where
  answering : w.answering = some (question, id)
  current : w.model.current = some question
  awaiting : w.model.phase = some .awaitingAnswer
  recorder : w.model.hasRecorder = true
  last : w.recorder.lastRecordingId = some id
  held : NotEnding w → w.recorder.phase = .recording id ∨ w.recorder.active = false

/-- A request that still stands is about the last answer, to the question that is
still current. -/
structure RequestInv (m : PracticeModel) (answer : PracticeAnswer) (asked : Nat) : Prop where
  last : m.answers.getLast? = some answer
  current : m.current = some answer.question
  asked : questionsAsked m.spoken = asked

structure PracticeInv (w : World) : Prop where
  model : ModelInv w.model
  recorder : RecorderInv w.recorder
  beginning : ∀ i before begun stage, w.tasks i = .beginning before begun stage →
    BeginningInv w before begun stage
  beginsOnce : ∀ i j, (w.tasks i).isBeginning = true → (w.tasks j).isBeginning = true → i = j
  ending : ∀ i question stage, w.tasks i = .ending question stage → EndingInv w question stage
  endsOnce : ∀ i j, (w.tasks i).isEnding = true → (w.tasks j).isEnding = true → i = j
  answering : w.model.isAnswering = true → ∃ question id, AnsweringInv w question id
  active : w.recorder.active = true →
    w.model.isAnswering = true ∨ ∃ i, (w.tasks i).isBeginning = true
  considering : ∀ i request answer asked, w.tasks i = .considering request answer asked →
    request < w.nextRequest ∧
      (w.model.followUpRequest = some request → RequestInv w.model answer asked)

theorem PracticeInv.new (hasRecorder hasFollowUps followUpsEnabled : Bool) :
    PracticeInv (World.new hasRecorder hasFollowUps followUpsEnabled) where
  model := ⟨by simp [World.new], by simp [World.new, followUpsSince], by simp [World.new],
    by simp [World.new, PracticeModel.phase]⟩
  recorder := ⟨by simp [World.new], by simp [World.new]⟩
  beginning := by simp [World.new]
  beginsOnce := by simp [World.new]
  ending := by simp [World.new]
  endsOnce := by simp [World.new]
  answering := by simp [World.new]
  active := by simp [World.new, Recorder.active, RecordingPhase.isActive]
  considering := by simp [World.new]

theorem PracticeInv.notBeginning (h : PracticeInv w)
    (hph : w.model.phase ≠ some .awaitingAnswer) : NotBeginning w := by
  intro i
  by_contra hbeg
  obtain ⟨before, begun, stage, htask⟩ := Task.isBeginning_eq_true.mp (by simpa using hbeg)
  exact hph (h.beginning i before begun stage htask).awaiting

theorem PracticeInv.notAnswering (h : PracticeInv w)
    (hph : w.model.phase ≠ some .awaitingAnswer) : w.model.isAnswering = false := by
  by_contra hans
  obtain ⟨question, id, hinv⟩ := h.answering (by simpa using hans)
  exact hph hinv.awaiting

theorem PracticeInv.inactive (h : PracticeInv w) (hbeg : NotBeginning w)
    (hans : w.model.isAnswering = false) : w.recorder.active = false := by
  by_contra hact
  rcases h.active (by simpa using hact) with htrue | ⟨i, hi⟩
  · rw [hans] at htrue
    cases htrue
  · rw [hbeg i] at hi
    cases hi

/-! ## Commands that await nothing -/

/-- What a command does to the model: nothing that an answer under way could
notice, or it acts while none is under way. -/
structure Moves (w : World) (m : PracticeModel) : Prop where
  recorder : m.hasRecorder = w.model.hasRecorder
  turn : m.isAnswering = w.model.isAnswering ∧ m.phase = w.model.phase ∧
      m.current = w.model.current ∨
    w.model.isAnswering = false ∧ m.isAnswering = false ∧ NotBeginning w
  request : m.followUpRequest = none ∨
    m.followUpRequest = w.model.followUpRequest ∧ m.answers = w.model.answers ∧
      m.current = w.model.current ∧ questionsAsked m.spoken = questionsAsked w.model.spoken

variable {m : PracticeModel}

theorem PracticeInv.setModel (h : PracticeInv w) (hmodel : ModelInv m) (hmoves : Moves w m) :
    PracticeInv (w.setModel m) where
  model := hmodel
  recorder := h.recorder
  beginning := by
    intro i before begun stage htask
    have hold := h.beginning i before begun stage htask
    rcases hmoves.turn with ⟨hans, hph, hcur⟩ | ⟨-, -, hbeg⟩
    · exact ⟨hans.trans hold.quiet, hph.trans hold.awaiting,
        hold.current.trans hcur.symm, hmoves.recorder.trans hold.recorder, hold.stage⟩
    · have hfalse := hbeg i
      rw [show w.tasks i = _ from htask] at hfalse
      cases hfalse
  beginsOnce := h.beginsOnce
  ending := by
    intro i question stage htask
    have hold := h.ending i question stage htask
    rcases hmoves.turn with ⟨hans, hph, hcur⟩ | ⟨hans, -, -⟩
    · exact ⟨hans.trans hold.answering, hcur.trans hold.current, hold.stage⟩
    · rw [hold.answering] at hans
      cases hans
  endsOnce := h.endsOnce
  answering := by
    intro htrue
    rcases hmoves.turn with ⟨hans, hph, hcur⟩ | ⟨-, hfalse, -⟩
    · obtain ⟨question, id, hold⟩ := h.answering (hans.symm.trans htrue)
      exact ⟨question, id, hold.answering, hcur.trans hold.current,
        hph.trans hold.awaiting, hmoves.recorder.trans hold.recorder, hold.last, hold.held⟩
    · rw [show m.isAnswering = true from htrue] at hfalse
      cases hfalse
  active := by
    intro hact
    rcases hmoves.turn with ⟨hans, -, -⟩ | ⟨hans, -, hbeg⟩
    · rcases h.active hact with htrue | hsome
      · exact Or.inl (hans.trans htrue)
      · exact Or.inr hsome
    · have hfalse := h.inactive hbeg hans
      rw [show w.recorder.active = true from hact] at hfalse
      cases hfalse
  considering := by
    intro i request answer asked htask
    obtain ⟨hlt, hstands⟩ := h.considering i request answer asked htask
    refine ⟨hlt, ?_⟩
    intro hreq
    rcases hmoves.request with hnone | ⟨hsame, hanss, hcur, hasked⟩
    · rw [show m.followUpRequest = some request from hreq] at hnone
      cases hnone
    · have hold := hstands (hsame.symm.trans hreq)
      exact ⟨by rw [← hold.last, ← hanss]; rfl, hcur.trans hold.current,
        hasked.trans hold.asked⟩

theorem Moves.of_same (hturn : m.turn = w.model.turn) (hquestions : m.questions = w.model.questions)
    (hans : m.isAnswering = w.model.isAnswering)
    (hrecr : m.hasRecorder = w.model.hasRecorder)
    (hreq : m.followUpRequest = none ∨ m.followUpRequest = w.model.followUpRequest)
    (hanss : m.answers = w.model.answers)
    (hspk : questionsAsked m.spoken = questionsAsked w.model.spoken) : Moves w m := by
  have hcur : m.current = w.model.current := by
    simp only [PracticeModel.current, hturn, hquestions]
  have hph : m.phase = w.model.phase := by
    rw [PracticeModel.phase, hturn, PracticeModel.phase]
  refine ⟨hrecr, Or.inl ⟨hans, hph, hcur⟩, ?_⟩
  rcases hreq with hnone | hsame
  · exact Or.inl hnone
  · exact Or.inr ⟨hsame, hanss, hcur, hspk⟩

theorem Moves.refl (w : World) : Moves w w.model :=
  Moves.of_same rfl rfl rfl rfl (Or.inr rfl) rfl rfl

theorem Moves.start {picked : List PracticeQuestion}
    (hquiet : picked = [] ∨ NotBeginning w ∧ w.model.isAnswering = false) :
    Moves w (w.model.start picked) := by
  cases picked with
  | nil => exact Moves.of_same rfl rfl rfl rfl (Or.inr rfl) rfl rfl
  | cons first rest =>
    obtain ⟨turn, -, -, -, -, hstart⟩ := start_cons w.model first rest
    rcases hquiet with hnil | ⟨hbeg, hans⟩
    · cases hnil
    · rw [hstart]
      exact ⟨rfl, Or.inr ⟨hans, hans, hbeg⟩, Or.inl rfl⟩

theorem Moves.repeatQuestion (w : World) : Moves w w.model.repeatQuestion := by
  rcases repeatQuestion_cases w.model with hsame | ⟨-, text, hsaid⟩
  · rw [hsame]
    exact Moves.refl w
  · rw [hsaid]
    exact Moves.of_same rfl rfl rfl rfl (Or.inr rfl) rfl (questionsAsked_repeated _ text)

theorem Moves.revealReference (w : World) : Moves w w.model.revealReference := by
  unfold PracticeModel.revealReference
  split
  · exact Moves.refl w
  · split
    · exact Moves.of_same rfl rfl rfl rfl (Or.inr rfl) rfl rfl
    · exact Moves.refl w

theorem Moves.next (h : PracticeInv w) : Moves w w.model.next := by
  by_cases hmove : w.model.canMoveOn = true
  · have hph : w.model.phase ≠ some .awaitingAnswer := by
      intro hawaiting
      simp [PracticeModel.canMoveOn, hawaiting] at hmove
    have hans := h.notAnswering hph
    have hbeg := h.notBeginning hph
    rcases next_cases h.model hmove with ⟨turn, text, -, -, -, -, -, hnext⟩ | hnext
    · rw [hnext]
      exact ⟨rfl, Or.inr ⟨hans, hans, hbeg⟩, Or.inl rfl⟩
    · rw [hnext]
      exact ⟨rfl, Or.inr ⟨hans, hans, hbeg⟩, Or.inl rfl⟩
  · rw [PracticeModel.next, if_neg hmove]
    exact Moves.refl w

theorem Moves.stop (hbeg : NotBeginning w) : Moves w w.model.stop := by
  by_cases hans : w.model.isAnswering = true
  · rw [PracticeModel.stop, if_pos hans]
    exact Moves.refl w
  · rw [PracticeModel.stop, if_neg hans]
    have hfalse : w.model.isAnswering = false := by simpa using hans
    exact ⟨rfl, Or.inr ⟨hfalse, hfalse, hbeg⟩, Or.inl rfl⟩

theorem Moves.followUpAnswered (h : PracticeInv w) (request : Nat) (answer : PracticeAnswer)
    (reply : Option String) : Moves w (w.model.followUpAnswered request answer reply) := by
  rcases followUpAnswered_cases w.model request answer reply with
    hsame | ⟨-, hquiet | ⟨turn, text, hturn, hph, -, hsaid⟩⟩
  · rw [hsame]
    exact Moves.refl w
  · rw [hquiet]
    exact Moves.of_same rfl rfl rfl rfl (Or.inl rfl) rfl rfl
  · have hcom : w.model.phase ≠ some .awaitingAnswer := by
      simp [PracticeModel.phase, hturn, hph]
    have hans := h.notAnswering hcom
    rw [hsaid]
    exact ⟨rfl, Or.inr ⟨hans, hans, h.notBeginning hcom⟩, Or.inl rfl⟩

/-! ## A recorder that begins -/

variable {j : Nat}

theorem setTask_cases {found : Task} (h : (w.setTask i task).tasks j = found) :
    j = i ∧ task = found ∨ j ≠ i ∧ w.tasks j = found := by
  by_cases hj : j = i
  · subst hj
    rw [World.setTask_self] at h
    exact Or.inl ⟨rfl, h⟩
  · rw [World.setTask_of_ne w task hj] at h
    exact Or.inr ⟨hj, h⟩

theorem PracticeInv.notEnding (h : PracticeInv w) (hans : w.model.isAnswering = false) :
    NotEnding w := by
  intro i
  by_contra hending
  obtain ⟨question, stage, htask⟩ := Task.isEnding_eq_true.mp (by simpa using hending)
  rw [(h.ending i question stage htask).answering] at hans
  cases hans

theorem PracticeInv.other_not_beginning (h : PracticeInv w)
    (htask : w.tasks i = .beginning before begun stage) (hj : j ≠ i) :
    (w.tasks j).isBeginning = false := by
  by_contra hbeg
  exact hj (h.beginsOnce j i (by simpa using hbeg) (by rw [htask]; rfl))

variable {recorder : Recorder}

/-- A `beginAnswer` is given, or the one under way gets on: it stays the only one. -/
theorem PracticeInv.setBeginning (h : PracticeInv w)
    (hos : ∀ j, j ≠ i → (w.tasks j).isBeginning = false) (hrecr : RecorderInv recorder)
    (hbegun : BeginningInv (w.setRecorder recorder) before begun stage) :
    PracticeInv ((w.setRecorder recorder).setTask i (.beginning before begun stage)) := by
  have hending := h.notEnding hbegun.quiet
  have honly : ∀ j, (((w.setRecorder recorder).setTask i
      (.beginning before begun stage)).tasks j).isBeginning = true → j = i := by
    intro j hj
    by_contra hne
    rw [World.setTask_of_ne _ _ hne] at hj
    rw [show ((w.setRecorder recorder).tasks j).isBeginning = false from hos j hne] at hj
    cases hj
  refine ⟨h.model, hrecr, ?_, ?_, ?_, ?_, ?_, ?_, ?_⟩
  · intro j before' begun' stage' htask
    rcases setTask_cases htask with ⟨-, hsame⟩ | ⟨hj, ho⟩
    · cases hsame
      exact ⟨hbegun.quiet, hbegun.awaiting, hbegun.current, hbegun.recorder, hbegun.stage⟩
    · have hfalse := hos j hj
      rw [show w.tasks j = _ from ho] at hfalse
      cases hfalse
  · intro j k hj hk
    rw [honly j hj, honly k hk]
  · intro j question stage' htask
    rcases setTask_cases htask with ⟨-, hsame⟩ | ⟨-, ho⟩
    · cases hsame
    · have hfalse := hending j
      rw [show w.tasks j = _ from ho] at hfalse
      cases hfalse
  · intro j k hj _
    obtain ⟨question, stage', htask⟩ := Task.isEnding_eq_true.mp hj
    rcases setTask_cases htask with ⟨-, hsame⟩ | ⟨-, ho⟩
    · cases hsame
    · have hfalse := hending j
      rw [show w.tasks j = _ from ho] at hfalse
      cases hfalse
  · intro hans
    have hfalse : w.model.isAnswering = false := hbegun.quiet
    rw [show w.model.isAnswering = true from hans] at hfalse
    cases hfalse
  · intro _
    exact Or.inr ⟨i, by rw [World.setTask_self]; rfl⟩
  · intro j request answer asked htask
    rcases setTask_cases htask with ⟨-, hsame⟩ | ⟨-, ho⟩
    · cases hsame
    · exact h.considering j request answer asked ho

theorem PracticeInv.beginAnswer (h : PracticeInv w) (hbeg : NotBeginning w) :
    PracticeInv (beginAnswer w i) := by
  unfold Practice.beginAnswer
  by_cases hcan : w.model.canBeginAnswer = true
  · rw [if_pos hcan]
    simp only [PracticeModel.canBeginAnswer, Bool.and_eq_true, beq_iff_eq,
      Bool.not_eq_true'] at hcan
    obtain ⟨⟨hawaiting, hquiet⟩, hrecr⟩ := hcan
    show PracticeInv ((w.setRecorder w.recorder).setTask i _)
    refine h.setBeginning (fun j _ => hbeg j) h.recorder
      ⟨hquiet, hawaiting, rfl, hrecr, ?_⟩
    -- A recorder that is still at an earlier recording returns at once.
    by_cases hact : w.recorder.phase.isActive = true
    · rw [if_pos hact]
      exact Or.inl ⟨rfl, h.inactive hbeg hquiet⟩
    · rw [if_neg hact]
      have hidle : w.recorder.phase.isActive = false := by simpa using hact
      exact ⟨hidle, rfl⟩
  · rw [if_neg hcan]
    exact h

/-- The recorder gets on with what a `beginAnswer` waits for. -/
theorem PracticeInv.advance {stage' : Beginning} (h : PracticeInv w)
    (htask : w.tasks i = .beginning before begun stage) (hrecr : RecorderInv recorder)
    (hstage : StageInv recorder before stage') :
    PracticeInv ((w.setRecorder recorder).setTask i (.beginning before begun stage')) := by
  have hold := h.beginning i before begun stage htask
  exact h.setBeginning (fun j hj => h.other_not_beginning htask hj) hrecr
    ⟨hold.quiet, hold.awaiting, hold.current, hold.recorder, hstage⟩

/-! ## The recorder by itself -/

def Recorder.Breaking (recorder : Recorder) : Prop :=
  (∃ id, recorder.phase = .recording id) ∨
    ∃ id, recorder.phase = .stopping id ∧ recorder.brokenOff = true

theorem Recorder.Breaking.isActive (h : recorder.Breaking) : recorder.phase.isActive = true := by
  rcases h with ⟨id, hph⟩ | ⟨id, hph, -⟩
  all_goals
    rw [hph]
    rfl

theorem Recorder.Breaking.not_preflighting (h : recorder.Breaking) :
    recorder.phase ≠ .preflighting := by
  rcases h with ⟨id, hph⟩ | ⟨id, hph, -⟩
  all_goals
    rw [hph]
    intro heq
    cases heq

/-- A `beginAnswer` does not wait any more for a recording that breaks off. -/
theorem StageInv.broken {old : Recorder} (h : StageInv old before stage) (hbreaking : old.Breaking)
    (hinactive : recorder.active = false) (hlast : recorder.lastRecordingId = old.lastRecordingId) :
    StageInv recorder before stage := by
  cases stage with
  | pausing =>
    have hidle : old.phase.isActive = false := h.1
    rw [hbreaking.isActive] at hidle
    cases hidle
  | preflighting => exact absurd h.1 hbreaking.not_preflighting
  | opening id => exact absurd h.1 hbreaking.not_preflighting
  | returned =>
    rcases h with ⟨hb, -⟩ | ⟨id, hid, hnew, -⟩
    · exact Or.inl ⟨hlast.trans hb, hinactive⟩
    · exact Or.inr ⟨id, hlast.trans hid, hnew, Or.inr hinactive⟩

theorem PracticeInv.setRecorder (h : PracticeInv w) (hbreaking : w.recorder.Breaking)
    (hrecr : RecorderInv recorder) (hidle : recorder.active = false)
    (hlast : recorder.lastRecordingId = w.recorder.lastRecordingId) :
    PracticeInv (w.setRecorder recorder) where
  model := h.model
  recorder := hrecr
  beginning := by
    intro i before begun stage htask
    have hold := h.beginning i before begun stage htask
    exact ⟨hold.quiet, hold.awaiting, hold.current, hold.recorder,
      hold.stage.broken hbreaking hidle hlast⟩
  beginsOnce := h.beginsOnce
  ending := by
    intro i question stage htask
    have hold := h.ending i question stage htask
    refine ⟨hold.answering, hold.current, ?_⟩
    cases stage with
    | stopping id =>
      obtain ⟨hstopping, hwhole⟩ := hold.stage
      rcases hbreaking with ⟨id', hph⟩ | ⟨id', -, hbroken⟩
      · rw [hstopping] at hph
        cases hph
      · rw [hwhole] at hbroken
        cases hbroken
    | returned => exact hidle
  endsOnce := h.endsOnce
  answering := by
    intro hans
    obtain ⟨question, id, hold⟩ := h.answering hans
    exact ⟨question, id, hold.answering, hold.current, hold.awaiting, hold.recorder,
      hlast.trans hold.last, fun _ => Or.inr hidle⟩
  active := by
    intro hact
    rw [show recorder.active = true from hact] at hidle
    cases hidle
  considering := h.considering

/-! ## Answers -/

/-- The command of the task `i`, which neither begins nor ends an answer, is
replaced by another such. -/
theorem PracticeInv.setTask (h : PracticeInv w) (hbegan : (w.tasks i).isBeginning = false)
    (hend : (w.tasks i).isEnding = false) (hbegins : task.isBeginning = false)
    (hends : task.isEnding = false)
    (hconsidering : ∀ request answer asked, task = .considering request answer asked →
      request < w.nextRequest ∧
        (w.model.followUpRequest = some request → RequestInv w.model answer asked))
    : PracticeInv (w.setTask i task) := by
  have hbeg : ∀ j, ((w.setTask i task).tasks j).isBeginning = (w.tasks j).isBeginning := by
    intro j
    by_cases hj : j = i
    · rw [hj, World.setTask_self, hbegins, hbegan]
    · rw [World.setTask_of_ne w task hj]
  have hending : ∀ j, ((w.setTask i task).tasks j).isEnding = (w.tasks j).isEnding := by
    intro j
    by_cases hj : j = i
    · rw [hj, World.setTask_self, hends, hend]
    · rw [World.setTask_of_ne w task hj]
  refine ⟨h.model, h.recorder, ?_, ?_, ?_, ?_, ?_, ?_, ?_⟩
  · intro j before begun stage htask
    rcases setTask_cases htask with ⟨-, rfl⟩ | ⟨-, ho⟩
    · cases hbegins
    · have hold := h.beginning j before begun stage ho
      exact ⟨hold.quiet, hold.awaiting, hold.current, hold.recorder, hold.stage⟩
  · intro j k hj hk
    rw [hbeg] at hj hk
    exact h.beginsOnce j k hj hk
  · intro j question stage htask
    rcases setTask_cases htask with ⟨-, rfl⟩ | ⟨-, ho⟩
    · cases hends
    · have hold := h.ending j question stage ho
      exact ⟨hold.answering, hold.current, hold.stage⟩
  · intro j k hj hk
    rw [hending] at hj hk
    exact h.endsOnce j k hj hk
  · intro hans
    obtain ⟨question, id, hold⟩ := h.answering hans
    refine ⟨question, id, hold.answering, hold.current, hold.awaiting, hold.recorder, hold.last, ?_⟩
    intro hnone
    exact hold.held fun j => (hending j).symm.trans (hnone j)
  · intro hact
    rcases h.active hact with htrue | ⟨j, hj⟩
    · exact Or.inl htrue
    · exact Or.inr ⟨j, (hbeg j).trans hj⟩
  · intro j request answer asked htask
    rcases setTask_cases htask with ⟨-, hnew⟩ | ⟨-, ho⟩
    · exact hconsidering request answer asked hnew
    · exact h.considering j request answer asked ho

theorem PracticeInv.settled (hmodel : ModelInv w.model) (hrecr : RecorderInv w.recorder)
    (hbeg : NotBeginning w) (hending : NotEnding w)
    (hans : w.model.isAnswering = true → ∃ question id, AnsweringInv w question id)
    (hact : w.recorder.active = true → w.model.isAnswering = true)
    (hconsidering : ∀ i request answer asked, w.tasks i = .considering request answer asked →
      request < w.nextRequest ∧
        (w.model.followUpRequest = some request → RequestInv w.model answer asked)) :
    PracticeInv w where
  model := hmodel
  recorder := hrecr
  beginning := by
    intro i before begun stage htask
    have hfalse := hbeg i
    rw [htask] at hfalse
    cases hfalse
  beginsOnce := by
    intro i j hi _
    rw [hbeg i] at hi
    cases hi
  ending := by
    intro i question stage htask
    have hfalse := hending i
    rw [htask] at hfalse
    cases hfalse
  endsOnce := by
    intro i j hi _
    rw [hending i] at hi
    cases hi
  answering := hans
  active := fun htrue => Or.inl (hact htrue)
  considering := hconsidering

theorem idle_others (hbeg : ∀ j, j ≠ i → (w.tasks j).isBeginning = false)
    (hending : ∀ j, j ≠ i → (w.tasks j).isEnding = false) :
    NotBeginning (w.setTask i .idle) ∧ NotEnding (w.setTask i .idle) := by
  refine ⟨?_, ?_⟩
  · intro j
    by_cases hj : j = i
    · rw [hj, World.setTask_self]
      rfl
    · rw [World.setTask_of_ne w .idle hj]
      exact hbeg j hj
  · intro j
    by_cases hj : j = i
    · rw [hj, World.setTask_self]
      rfl
    · rw [World.setTask_of_ne w .idle hj]
      exact hending j hj

/-- `beginAnswer`, once the recorder has answered, touches no turn and no request. -/
theorem PracticeInv.considering_answerBegun (h : PracticeInv w) (recording : Bool) (j request : Nat)
    (answer : PracticeAnswer) (asked : Nat)
    (htask : (w.setTask i .idle).tasks j = .considering request answer asked) :
    request < w.nextRequest ∧ ((w.model.answerBegun recording).followUpRequest = some request →
      RequestInv (w.model.answerBegun recording) answer asked) := by
  rcases setTask_cases htask with ⟨-, hsame⟩ | ⟨-, ho⟩
  · cases hsame
  · obtain ⟨hlt, hstands⟩ := h.considering j request answer asked ho
    refine ⟨hlt, ?_⟩
    cases recording with
    | false =>
      intro hreq
      obtain ⟨hgot, hcur, hasked⟩ := hstands hreq
      exact ⟨hgot, hcur, hasked⟩
    | true =>
      intro hreq
      obtain ⟨hgot, hcur, hasked⟩ := hstands hreq
      exact ⟨hgot, hcur, hasked⟩

/-- The rest of `beginAnswer`: the recording it began is the one that is answered with. -/
theorem PracticeInv.finishBeginning (h : PracticeInv w)
    (htask : w.tasks i = .beginning before begun .returned) :
    PracticeInv (finishBeginning w i before begun) := by
  have hold := h.beginning i before begun .returned htask
  have hending := h.notEnding hold.quiet
  obtain ⟨question, hcur⟩ := h.model.exists_current (Or.inl hold.awaiting)
  obtain ⟨hnoneBegins, hnoneEnds⟩ := idle_others (w := w) (i := i)
    (fun j hj => h.other_not_beginning htask hj) (fun j _ => hending j)
  unfold Practice.finishBeginning
  by_cases hrecg : (w.recorder.phase.isActive &&
      w.recorder.lastRecordingId != before) = true
  · obtain ⟨-, hnew⟩ := Bool.and_eq_true_iff.mp hrecg
    rw [hrecg]
    rcases hold.stage with ⟨hb, -⟩ | ⟨id, hlast, -, hheld⟩
    · simp [hb] at hnew
    · refine PracticeInv.settled (h.model.congr rfl rfl rfl h.model.request rfl rfl) h.recorder
        hnoneBegins hnoneEnds ?_ (fun _ => rfl) (h.considering_answerBegun true)
      intro _
      refine ⟨question, id, ?_, hcur, hold.awaiting, hold.recorder, hlast, fun _ => hheld⟩
      simp [hold.current, hcur, hlast]
  · have hfalse := Bool.not_eq_true _ ▸ hrecg
    rw [hfalse]
    have hidle : w.recorder.active = false := by
      rcases hold.stage with ⟨-, hidle⟩ | ⟨id, hlast, hnew, hph | hidle⟩
      · exact hidle
      · simp [hph, RecordingPhase.isActive, hlast, Ne.symm hnew] at hfalse
      · exact hidle
    refine PracticeInv.settled (h.model.congr rfl rfl rfl h.model.request rfl rfl) h.recorder
      hnoneBegins hnoneEnds ?_ ?_ (h.considering_answerBegun false)
    · intro hans
      have hquiet := hold.quiet
      rw [show w.model.isAnswering = true from hans] at hquiet
      cases hquiet
    · intro hact
      rw [show w.recorder.active = true from hact] at hidle
      cases hidle

/-! ## A recorder that ends -/

/-- An `endAnswer` is given, or the one under way gets on: it stays the only one. -/
theorem PracticeInv.setEnding {stage : Ending} (h : PracticeInv w)
    (hos : ∀ j, j ≠ i → (w.tasks j).isEnding = false) (hrecr : RecorderInv recorder)
    (hlast : recorder.lastRecordingId = w.recorder.lastRecordingId)
    (hends : EndingInv (w.setRecorder recorder) question stage) :
    PracticeInv ((w.setRecorder recorder).setTask i (.ending question stage)) := by
  have hans : w.model.isAnswering = true := hends.answering
  have hbeg : ∀ j before begun stage',
      ((w.setRecorder recorder).setTask i (.ending question stage)).tasks j ≠
        .beginning before begun stage' := by
    intro j before begun stage' htask
    rcases setTask_cases htask with ⟨-, hsame⟩ | ⟨-, ho⟩
    · cases hsame
    · have hquiet := (h.beginning j before begun stage' ho).quiet
      rw [hans] at hquiet
      cases hquiet
  have honly : ∀ j, (((w.setRecorder recorder).setTask i
      (.ending question stage)).tasks j).isEnding = true → j = i := by
    intro j hj
    by_contra hne
    rw [World.setTask_of_ne _ _ hne] at hj
    rw [show ((w.setRecorder recorder).tasks j).isEnding = false from hos j hne] at hj
    cases hj
  refine ⟨h.model, hrecr, ?_, ?_, ?_, ?_, ?_, ?_, ?_⟩
  · intro j before begun stage' htask
    exact absurd htask (hbeg j before begun stage')
  · intro j k hj _
    obtain ⟨before, begun, stage', htask⟩ := Task.isBeginning_eq_true.mp hj
    exact absurd htask (hbeg j before begun stage')
  · intro j question' stage' htask
    rcases setTask_cases htask with ⟨-, hsame⟩ | ⟨hj, ho⟩
    · cases hsame
      exact ⟨hends.answering, hends.current, hends.stage⟩
    · have hfalse := hos j hj
      rw [show w.tasks j = _ from ho] at hfalse
      cases hfalse
  · intro j k hj hk
    rw [honly j hj, honly k hk]
  · intro _
    obtain ⟨question', id, hold⟩ := h.answering hans
    refine ⟨question', id, hold.answering, hold.current, hold.awaiting, hold.recorder,
      hlast.trans hold.last, ?_⟩
    intro hnone
    have hfalse := hnone i
    rw [World.setTask_self] at hfalse
    cases hfalse
  · intro _
    exact Or.inl hans
  · intro j request answer asked htask
    rcases setTask_cases htask with ⟨-, hsame⟩ | ⟨-, ho⟩
    · cases hsame
    · exact h.considering j request answer asked ho

theorem PracticeInv.endAnswer (h : PracticeInv w) (hending : NotEnding w) :
    PracticeInv (endAnswer w i) := by
  unfold Practice.endAnswer
  cases hcur : w.model.current with
  | none => exact h
  | some question =>
    dsimp only
    split
    · rename_i hgrd
      have hans := (Bool.and_eq_true_iff.mp hgrd).1
      obtain ⟨question', id, hold⟩ := h.answering hans
      have hos : ∀ j, j ≠ i → (w.tasks j).isEnding = false := fun j _ => hending j
      split
      · rename_i id' hph
        refine h.setEnding hos ⟨h.recorder.fresh, ?_⟩ rfl ⟨hans, hcur, rfl, ?_⟩
        · rintro (hpreflighting | ⟨other, hrecg⟩)
          · cases hpreflighting
          · cases hrecg
        · exact h.recorder.whole (Or.inr ⟨id', hph⟩)
      · rename_i hph
        show PracticeInv ((w.setRecorder w.recorder).setTask i _)
        refine h.setEnding hos h.recorder rfl ⟨hans, hcur, ?_⟩
        rcases hold.held hending with hrecg | hidle
        · exact absurd hrecg (hph id)
        · exact hidle
    · exact h

theorem PracticeInv.other_not_ending {stage : Ending} (h : PracticeInv w)
    (htask : w.tasks i = .ending question stage) (hj : j ≠ i) : (w.tasks j).isEnding = false := by
  by_contra hending
  exact hj (h.endsOnce j i (by simpa using hending) (by rw [htask]; rfl))

theorem PracticeInv.seals {id : Nat} (h : PracticeInv w)
    (htask : w.tasks i = .ending question (.stopping id)) (sealed : Bool) :
    PracticeInv ((w.setRecorder { w.recorder with
      phase := if sealed then .sealed id else .needsAttention id }).setTask i
        (.ending question .returned)) := by
  have hold := h.ending i question (.stopping id) htask
  refine h.setEnding (fun j hj => h.other_not_ending htask hj) ⟨h.recorder.fresh, ?_⟩ rfl
    ⟨hold.answering, hold.current, ?_⟩
  · cases sealed
    all_goals simp
  · cases sealed
    all_goals rfl

theorem PracticeInv.awaiting_turn (h : PracticeInv w) (hans : w.model.isAnswering = true) :
    ∃ turn, w.model.turn = some turn ∧ turn.phase = .awaitingAnswer := by
  obtain ⟨question, id, hold⟩ := h.answering hans
  exact Option.map_eq_some_iff.mp hold.awaiting

theorem PracticeInv.finishEnding (h : PracticeInv w)
    (htask : w.tasks i = .ending question .returned) : PracticeInv (finishEnding w i question) := by
  have hold := h.ending i question .returned htask
  obtain ⟨question', id, hans⟩ := h.answering hold.answering
  obtain ⟨turn, hturn, hph⟩ := h.awaiting_turn hold.answering
  have hbeg : NotBeginning w := by
    intro j
    by_contra hbegins
    obtain ⟨before, begun, stage, ho⟩ := Task.isBeginning_eq_true.mp (by simpa using hbegins)
    have hquiet := (h.beginning j before begun stage ho).quiet
    rw [hold.answering] at hquiet
    cases hquiet
  have hreq : w.model.followUpRequest = none := by
    by_contra hsome
    have hcom := h.model.request hsome
    rw [hans.awaiting] at hcom
    cases hcom
  obtain ⟨hnoneBegins, hnoneEnds⟩ := idle_others (w := w) (i := i)
    (fun j _ => hbeg j) (fun j hj => h.other_not_ending htask hj)
  unfold Practice.finishEnding
  rw [hans.last]
  refine PracticeInv.settled (h.model.answerEnded hturn hph question id) h.recorder
    hnoneBegins hnoneEnds ?_ ?_ ?_
  · intro hanswering
    have hfalse : (w.model.answerEnded question (some id)).isAnswering = false := by
      rw [answerEnded_some hturn hph]
    rw [show (w.model.answerEnded question (some id)).isAnswering = true from hanswering] at hfalse
    cases hfalse
  · intro hact
    have hidle : w.recorder.active = false := hold.stage
    rw [show w.recorder.active = true from hact] at hidle
    cases hidle
  · intro j request answer asked ho
    rcases setTask_cases ho with ⟨-, hsame⟩ | ⟨-, ho⟩
    · cases hsame
    · refine ⟨(h.considering j request answer asked ho).1, ?_⟩
      intro hstands
      have hnone : (w.model.answerEnded question (some id)).followUpRequest = none := by
        rw [answerEnded_some hturn hph]
        exact hreq
      rw [show (w.model.answerEnded question (some id)).followUpRequest = _ from hstands] at hnone
      cases hnone

/-! ## Requests -/

theorem PracticeInv.considerFollowUp (h : PracticeInv w) :
    PracticeInv (considerFollowUp w i) := by
  unfold Practice.considerFollowUp
  cases hconsidered : w.model.consideredAnswer with
  | none => exact h
  | some answer =>
    obtain ⟨hcom, hlast, hcur⟩ := consideredAnswer_some hconsidered
    have hph : w.model.phase ≠ some .awaitingAnswer := by
      rw [hcom]
      simp
    have hbeg := h.notBeginning hph
    have hans := h.notAnswering hph
    have hending := h.notEnding hans
    have hkeeps : ∀ j, ((w.setTask i (.considering w.nextRequest answer
        (questionsAsked w.model.spoken))).tasks j).isBeginning = false ∧
        ((w.setTask i (.considering w.nextRequest answer
          (questionsAsked w.model.spoken))).tasks j).isEnding = false := by
      intro j
      by_cases hj : j = i
      · rw [hj, World.setTask_self]
        exact ⟨rfl, rfl⟩
      · rw [World.setTask_of_ne w _ hj]
        exact ⟨hbeg j, hending j⟩
    refine PracticeInv.settled (h.model.considering hcom w.nextRequest) h.recorder
      (fun j => (hkeeps j).1) (fun j => (hkeeps j).2) ?_ ?_ ?_
    · intro htrue
      rw [show w.model.isAnswering = true from htrue] at hans
      cases hans
    · intro hact
      have hidle := h.inactive hbeg hans
      rw [show w.recorder.active = true from hact] at hidle
      cases hidle
    · intro j request other asked ho
      rcases setTask_cases (w := w) ho with ⟨-, hsame⟩ | ⟨-, ho⟩
      · cases hsame
        exact ⟨Nat.lt_succ_self _, fun _ => ⟨hlast, hcur, rfl⟩⟩
      · have hlt := (h.considering j request other asked ho).1
        refine ⟨Nat.lt_succ_of_lt hlt, ?_⟩
        intro hstands
        have hnew : w.nextRequest = request := Option.some.inj hstands
        omega

theorem PracticeInv.followUpAnswered {asked : Nat} (h : PracticeInv w)
    (htask : w.tasks i = .considering request answer asked) (reply : Option String) :
    PracticeInv ((w.setModel (w.model.followUpAnswered request answer reply)).setTask i .idle) := by
  have hstands := (h.considering i request answer asked htask).2
  have hmodel : ModelInv (w.model.followUpAnswered request answer reply) :=
    h.model.followUpAnswered (fun hreq => (hstands hreq).last) reply
  refine (h.setModel hmodel (Moves.followUpAnswered h request answer reply)).setTask ?_ ?_ rfl rfl
    (by simp)
  · show (w.tasks i).isBeginning = false
    rw [htask]
    rfl
  · show (w.tasks i).isEnding = false
    rw [htask]
    rfl

/-! ## Steps -/

theorem PracticeInv.step {action : Action} (h : PracticeInv w) (hstep : Step w action w')
    (hcalm : Undisturbed ⟨w, action, w'⟩) : PracticeInv w' := by
  cases action with
  | start picked =>
    cases hstep
    exact h.setModel (h.model.start picked) (Moves.start hcalm)
  | repeatQuestion =>
    cases hstep
    exact h.setModel h.model.repeatQuestion (Moves.repeatQuestion w)
  | revealReference =>
    cases hstep
    exact h.setModel h.model.revealReference (Moves.revealReference w)
  | next =>
    cases hstep
    exact h.setModel h.model.next (Moves.next h)
  | stop =>
    cases hstep
    exact h.setModel h.model.stop (Moves.stop hcalm)
  | setFollowUpsEnabled enabled =>
    cases hstep
    exact h.setModel (h.model.congr rfl rfl rfl h.model.request rfl rfl)
      (Moves.of_same rfl rfl rfl rfl (Or.inr rfl) rfl rfl)
  | beginAnswer i =>
    simp only [Step, act, Option.ite_none_right_eq_some, Option.some.injEq] at hstep
    obtain ⟨-, rfl⟩ := hstep
    exact h.beginAnswer hcalm
  | endAnswer i =>
    simp only [Step, act, Option.ite_none_right_eq_some, Option.some.injEq] at hstep
    obtain ⟨-, rfl⟩ := hstep
    exact h.endAnswer hcalm
  | considerFollowUp i =>
    simp only [Step, act, Option.ite_none_right_eq_some, Option.some.injEq] at hstep
    obtain ⟨-, rfl⟩ := hstep
    exact h.considerFollowUp
  | preflights i =>
    simp only [Step, act] at hstep
    split at hstep
    · rename_i before begun htask
      cases hstep
      exact h.advance htask ⟨h.recorder.fresh, fun _ => rfl⟩
        ⟨rfl, (h.beginning i before begun _ htask).stage.2⟩
    · cases hstep
  | blocks i =>
    simp only [Step, act] at hstep
    split at hstep
    · rename_i before begun htask
      cases hstep
      exact h.advance htask ⟨h.recorder.fresh, by simp⟩
        (Or.inl ⟨(h.beginning i before begun _ htask).stage.2, rfl⟩)
    · cases hstep
  | creates i =>
    simp only [Step, act] at hstep
    split at hstep
    · rename_i before begun htask
      cases hstep
      obtain ⟨hph, hb⟩ := (h.beginning i before begun _ htask).stage
      refine h.advance htask ⟨?_, fun _ => h.recorder.whole (Or.inl hph)⟩ ⟨hph, rfl, ?_⟩
      · rintro id ⟨⟩
        exact Nat.lt_succ_self _
      · intro hsame
        exact Nat.lt_irrefl _ (h.recorder.fresh _ (hb.trans hsame))
    · cases hstep
  | records i =>
    simp only [Step, act] at hstep
    split at hstep
    · rename_i before begun id htask
      cases hstep
      obtain ⟨hph, hlast, hnew⟩ := (h.beginning i before begun _ htask).stage
      exact h.advance htask ⟨h.recorder.fresh, fun _ => h.recorder.whole (Or.inl hph)⟩
        (Or.inr ⟨id, hlast, hnew, Or.inl rfl⟩)
    · cases hstep
  | fails i =>
    simp only [Step, act] at hstep
    split at hstep
    · rename_i before begun htask
      cases hstep
      have hb := (h.beginning i before begun _ htask).stage.2
      refine h.advance htask ⟨?_, by simp⟩ (Or.inl ⟨hb, rfl⟩)
      intro id hid
      exact Nat.lt_succ_of_lt (h.recorder.fresh id hid)
    · rename_i before begun id htask
      cases hstep
      obtain ⟨-, hlast, hnew⟩ := (h.beginning i before begun _ htask).stage
      exact h.advance htask ⟨h.recorder.fresh, by simp⟩ (Or.inr ⟨id, hlast, hnew, Or.inr rfl⟩)
    · cases hstep
  | seals i sealed =>
    simp only [Step, act] at hstep
    split at hstep
    · rename_i question id htask
      cases hstep
      exact h.seals htask sealed
    · cases hstep
  | breaksOff =>
    simp only [Step, act] at hstep
    split at hstep
    · rename_i id hph
      cases hstep
      exact h.setRecorder (Or.inl ⟨id, hph⟩) ⟨h.recorder.fresh, by simp⟩
        (by simp [Recorder.active]) rfl
    · cases hstep
  | settles =>
    simp only [Step, act] at hstep
    split at hstep
    · rename_i id hph
      split at hstep
      · rename_i hbroken
        cases hstep
        exact h.setRecorder (Or.inr ⟨id, hph, hbroken⟩) ⟨h.recorder.fresh, by simp⟩ rfl rfl
      · cases hstep
    · cases hstep
  | answerBegun i =>
    simp only [Step, act] at hstep
    split at hstep
    · rename_i before begun htask
      cases hstep
      exact h.finishBeginning htask
    · cases hstep
  | answerEnded i =>
    simp only [Step, act] at hstep
    split at hstep
    · rename_i question htask
      cases hstep
      exact h.finishEnding htask
    · cases hstep
  | followUpAnswered i text =>
    simp only [Step, act] at hstep
    split at hstep
    · rename_i request answer asked htask
      cases hstep
      exact h.followUpAnswered htask text
    · cases hstep

end TamForge.Practice
