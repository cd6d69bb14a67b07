import TamForge.Practice.Proofs.Invariant

/-!
# No interruption and no stranded recording

What every action of an undisturbed session does, and that an answer under way
can always be ended.  A command that runs while another still waits for the
recorder can disturb it; the session at the end of the file does.
-/

namespace TamForge.Practice

open ProofSupport

variable {w w' : World} {i : Nat} {action : Action} {trace : List (Transition World Action)}

/-- A follow-up about the recording `about` answers a request that was made after
the last answer, while the question last asked was the same. -/
def FollowsUp (w : World) (action : Action) (about : Nat) : Prop :=
  ∃ i reply request answer asked, action = .followUpAnswered i reply ∧
    w.tasks i = .considering request answer asked ∧ RequestInv w.model answer asked ∧
      answer.recordingId = about

def NamesParent (m : PracticeModel) (answer : PracticeAnswer) : Prop :=
  match answer.followUpQuestion with
  | none => answer.parentRecordingId = none
  | some text => ∃ about, lastFollowUp m.spoken = some (text, about) ∧
      answer.parentRecordingId = some about

structure Practised (e : Transition World Action) : Prop where
  /-- Nothing is spoken while a recording is active. -/
  spoken : e.after.model.spoken = e.before.model.spoken ∨
    ∃ utterance, e.after.model.spoken = e.before.model.spoken ++ [utterance] ∧
      e.before.recorder.active = false ∧ e.after.recorder = e.before.recorder ∧
        ∀ text about, utterance = .followUp text about → FollowsUp e.before e.label about
  bounded : followUpsSince e.after.model.spoken ≤ InterviewerTurn.maxFollowUps
  /-- Only `endAnswer` ends an answer. -/
  held : e.before.model.isAnswering = true → (∀ i, e.label ≠ .answerEnded i) →
    e.after.model.isAnswering = true ∧ e.after.answering = e.before.answering
  kept : (∀ i, e.label ≠ .answerEnded i) → (∀ first rest, e.label ≠ .start (first :: rest)) →
    e.after.model.answers = e.before.model.answers
  /-- It ends the recording, and keeps one answer for the question it was begun for. -/
  answered : ∀ i, e.label = .answerEnded i → ∃ answer,
    e.before.answering = some (answer.question, answer.recordingId) ∧
      e.after.model.answers = e.before.model.answers ++ [answer] ∧
        answer.followUpQuestion = e.before.model.currentFollowUp ∧
          NamesParent e.before.model answer ∧ e.after.recorder.active = false ∧
            e.after.model.isAnswering = false

/-- The answer under way can be ended by any task that is free, or by the one that
is ending it. -/
def Endable (w : World) : Prop :=
  w.model.isAnswering = true → ∀ i,
    (w.tasks i).isEnding = true ∨ w.tasks i = .idle ∧ NotEnding w →
      ∃ trace w' answer, Run Step w trace w' ∧
        (∀ e ∈ trace, e.label ∈ [.endAnswer i, .seals i true, .answerEnded i]) ∧
          w.answering = some (answer.question, answer.recordingId) ∧
            w'.model.answers = w.model.answers ++ [answer] ∧ w'.recorder.active = false ∧
              w'.model.isAnswering = false

/-! ## Commands -/

theorem Practised.of_same (h : PracticeInv w) (hmodel : w'.model = w.model)
    (hans : w'.answering = w.answering) (hlab : ∀ i, action ≠ .answerEnded i) :
    Practised ⟨w, action, w'⟩ where
  spoken := Or.inl (by rw [hmodel])
  bounded := by
    rw [hmodel]
    exact h.model.followUps_le
  held := by
    intro htrue _
    exact ⟨by rw [hmodel]; exact htrue, hans⟩
  kept := by
    intro _ _
    rw [hmodel]
  answered := fun i hend => absurd hend (hlab i)

variable {m : PracticeModel}

theorem Moves.held (h : Moves w m) :
    m.isAnswering = w.model.isAnswering ∨ w.model.isAnswering = false := by
  rcases h.turn with ⟨hsame, -, -⟩ | ⟨hfalse, -, -⟩
  · exact Or.inl hsame
  · exact Or.inr hfalse

theorem Practised.of_model (hinv : ModelInv m)
    (hheld : m.isAnswering = w.model.isAnswering ∨ w.model.isAnswering = false)
    (hmodel : w'.model = m) (hrecr : w'.recorder = w.recorder)
    (hans : w'.answering = w.answering) (hlab : ∀ i, action ≠ .answerEnded i)
    (hspk : m.spoken = w.model.spoken ∨
      ∃ utterance, m.spoken = w.model.spoken ++ [utterance] ∧ w.recorder.active = false ∧
        ∀ text about, utterance = .followUp text about → FollowsUp w action about)
    (hkept : (∀ first rest, action ≠ .start (first :: rest)) → m.answers = w.model.answers) :
    Practised ⟨w, action, w'⟩ where
  spoken := by
    rw [hmodel]
    rcases hspk with hsame | ⟨utterance, hsaid, hidle, hfollows⟩
    · exact Or.inl hsame
    · exact Or.inr ⟨utterance, hsaid, hidle, hrecr, hfollows⟩
  bounded := by
    rw [hmodel]
    exact hinv.followUps_le
  held := by
    intro htrue _
    rw [hmodel]
    rcases hheld with hsame | hfalse
    · exact ⟨hsame.trans htrue, hans⟩
    · rw [show w.model.isAnswering = true from htrue] at hfalse
      cases hfalse
  kept := by
    intro _ hstart
    rw [hmodel]
    exact hkept hstart
  answered := fun i hend => absurd hend (hlab i)

theorem practised_start {picked : List PracticeQuestion} (h : PracticeInv w)
    (hquiet : picked = [] ∨ NotBeginning w ∧ w.model.isAnswering = false) :
    Practised ⟨w, .start picked, w.setModel (w.model.start picked)⟩ := by
  refine Practised.of_model (h.model.start picked) (Moves.start hquiet).held rfl rfl rfl
    (by simp) ?_ ?_
  · cases picked with
    | nil => exact Or.inl rfl
    | cons first rest =>
      obtain ⟨turn, -, -, -, -, hstart⟩ := start_cons w.model first rest
      rcases hquiet with hnil | ⟨hbeg, hans⟩
      · cases hnil
      · rw [hstart]
        exact Or.inr ⟨_, rfl, h.inactive hbeg hans, by simp⟩
  · intro hlab
    cases picked with
    | nil => rfl
    | cons first rest => exact absurd rfl (hlab first rest)

theorem practised_repeatQuestion (h : PracticeInv w)
    (hquiet : w.model.isAnswering = true ∨ w.recorder.active = false) :
    Practised ⟨w, .repeatQuestion, w.setModel w.model.repeatQuestion⟩ := by
  refine Practised.of_model h.model.repeatQuestion (Moves.repeatQuestion w).held rfl rfl rfl
    (by simp) ?_ ?_
  · rcases repeatQuestion_cases w.model with hsame | ⟨hfalse, text, hsaid⟩
    · exact Or.inl (by rw [hsame])
    · rw [hfalse] at hquiet
      rw [hsaid]
      exact Or.inr ⟨_, rfl, by simpa using hquiet, by simp⟩
  · intro _
    rcases repeatQuestion_cases w.model with hsame | ⟨-, text, hsaid⟩
    · rw [hsame]
    · rw [hsaid]
      rfl

theorem practised_next (h : PracticeInv w) :
    Practised ⟨w, .next, w.setModel w.model.next⟩ := by
  by_cases hmove : w.model.canMoveOn = true
  · have hph : w.model.phase ≠ some .awaitingAnswer := by
      intro hawaiting
      simp [PracticeModel.canMoveOn, hawaiting] at hmove
    have hidle := h.inactive (h.notBeginning hph) (h.notAnswering hph)
    refine Practised.of_model h.model.next (Moves.next h).held rfl rfl rfl (by simp) ?_ ?_
    · rcases next_cases h.model hmove with ⟨turn, text, -, -, -, -, -, hnext⟩ | hnext
      · rw [hnext]
        exact Or.inr ⟨_, rfl, hidle, by simp⟩
      · rw [hnext]
        exact Or.inl rfl
    · intro _
      rcases next_cases h.model hmove with ⟨turn, text, -, -, -, -, -, hnext⟩ | hnext
      · rw [hnext]
        rfl
      · rw [hnext]
        rfl
  · refine Practised.of_same h ?_ rfl (by simp)
    show w.model.next = w.model
    rw [PracticeModel.next, if_neg hmove]

theorem practised_followUpAnswered {request asked : Nat} {answer : PracticeAnswer}
    (h : PracticeInv w) (htask : w.tasks i = .considering request answer asked)
    (reply : Option String) :
    Practised ⟨w, .followUpAnswered i reply,
      (w.setModel (w.model.followUpAnswered request answer reply)).setTask i .idle⟩ := by
  have hstands := (h.considering i request answer asked htask).2
  have hmodel : ModelInv (w.model.followUpAnswered request answer reply) :=
    h.model.followUpAnswered (fun hreq => (hstands hreq).last) reply
  refine Practised.of_model hmodel (Moves.followUpAnswered h request answer reply).held rfl rfl rfl
    (by simp) ?_ ?_
  · rcases followUpAnswered_cases w.model request answer reply with
      hsame | ⟨hreq, hquiet | ⟨turn, text, hturn, hph, -, hsaid⟩⟩
    · exact Or.inl (by rw [hsame])
    · exact Or.inl (by rw [hquiet])
    · have hcom : w.model.phase ≠ some .awaitingAnswer := by
        simp [PracticeModel.phase, hturn, hph]
      rw [hsaid]
      refine Or.inr ⟨_, rfl, h.inactive (h.notBeginning hcom) (h.notAnswering hcom), ?_⟩
      rintro text' about ⟨⟩
      exact ⟨i, reply, request, answer, asked, rfl, htask, hstands hreq, rfl⟩
  · intro _
    rcases followUpAnswered_cases w.model request answer reply with
      hsame | ⟨-, hquiet | ⟨turn, text, -, -, -, hsaid⟩⟩
    · rw [hsame]
    · rw [hquiet]
    · rw [hsaid]

theorem practised_revealReference (h : PracticeInv w) :
    Practised ⟨w, .revealReference, w.setModel w.model.revealReference⟩ := by
  refine Practised.of_model h.model.revealReference (Moves.revealReference w).held rfl rfl rfl
    (by simp) (Or.inl ?_) (fun _ => ?_)
  all_goals
    unfold PracticeModel.revealReference
    split
    · rfl
    · split
      all_goals rfl

theorem practised_stop (h : PracticeInv w) (hbeg : NotBeginning w) :
    Practised ⟨w, .stop, w.setModel w.model.stop⟩ := by
  refine Practised.of_model h.model.stop (Moves.stop hbeg).held rfl rfl rfl
    (by simp) (Or.inl ?_) (fun _ => ?_)
  all_goals
    unfold PracticeModel.stop
    split
    all_goals rfl

theorem practised_considerFollowUp (h : PracticeInv w) :
    Practised ⟨w, .considerFollowUp i, considerFollowUp w i⟩ := by
  have ha := h.considerFollowUp (i := i)
  unfold considerFollowUp at ha ⊢
  cases hconsidered : w.model.consideredAnswer with
  | none => exact Practised.of_same h rfl rfl (by simp)
  | some answer =>
    rw [hconsidered] at ha
    exact Practised.of_model ha.model (Or.inl rfl) rfl rfl rfl (by simp) (Or.inl rfl)
      (fun _ => rfl)

theorem practised_beginAnswer (h : PracticeInv w) :
    Practised ⟨w, .beginAnswer i, beginAnswer w i⟩ := by
  refine Practised.of_same h ?_ ?_ (by simp)
  all_goals
    unfold beginAnswer
    split
    all_goals rfl

theorem practised_endAnswer (h : PracticeInv w) :
    Practised ⟨w, .endAnswer i, endAnswer w i⟩ := by
  refine Practised.of_same h ?_ ?_ (by simp)
  all_goals
    unfold endAnswer
    split
    · rfl
    · split
      · split
        all_goals rfl
      · rfl

theorem practised_answerBegun {before : Option Nat} {begun : Option PracticeQuestion}
    (h : PracticeInv w) (htask : w.tasks i = .beginning before begun .returned) :
    Practised ⟨w, .answerBegun i, finishBeginning w i before begun⟩ where
  spoken := by
    refine Or.inl ?_
    simp only [finishBeginning, World.setTask, World.setModel, PracticeModel.answerBegun]
    split
    all_goals rfl
  bounded := (h.finishBeginning htask).model.followUps_le
  held := by
    intro htrue _
    have hquiet := (h.beginning i before begun .returned htask).quiet
    rw [show w.model.isAnswering = true from htrue] at hquiet
    cases hquiet
  kept := by
    intro _ _
    simp only [finishBeginning, World.setTask, World.setModel, PracticeModel.answerBegun]
    split
    all_goals rfl
  answered := by simp

variable {question : PracticeQuestion}

theorem practised_answerEnded (h : PracticeInv w) (htask : w.tasks i = .ending question .returned) :
    Practised ⟨w, .answerEnded i, finishEnding w i question⟩ := by
  have hold := h.ending i question .returned htask
  obtain ⟨question', id, hans⟩ := h.answering hold.answering
  obtain ⟨turn, hturn, hph⟩ := h.awaiting_turn hold.answering
  have hques : question' = question :=
    Option.some.inj (hans.current.symm.trans hold.current)
  subst hques
  have hmodel : (finishEnding w i question').model = w.model.answerEnded question' (some id) := by
    simp [finishEnding, World.setTask, World.setModel, hans.last]
  have hend := answerEnded_some hturn hph question' id
  refine ⟨Or.inl ?_, ?_, ?_, ?_, ?_⟩
  · rw [hmodel, hend]
  · exact (h.finishEnding htask).model.followUps_le
  · intro _ hlab
    exact absurd rfl (hlab i)
  · intro hlab _
    exact absurd rfl (hlab i)
  · rintro j ⟨⟩
    rw [hmodel, hend]
    refine ⟨_, hans.answering, rfl, rfl, ?_, hold.stage, rfl⟩
    cases hfollowUp : w.model.currentFollowUp with
    | none => simp [NamesParent]
    | some text =>
      obtain ⟨about, hlast, hparent⟩ := h.model.parent hans.awaiting text hfollowUp
      exact ⟨about, hlast, by simpa using hparent⟩

def Action.ofRecorder : Action → Bool
  | .preflights _ | .blocks _ | .creates _ | .records _ | .fails _ | .seals _ _
  | .breaksOff | .settles => true
  | _ => false

theorem Step.recorder_keeps (hstep : Step w action w') (hof : action.ofRecorder = true) :
    w'.model = w.model ∧ w'.answering = w.answering := by
  cases action
  all_goals simp [Action.ofRecorder] at hof
  all_goals
    simp only [Step, act] at hstep
    repeat' split at hstep
  all_goals cases hstep
  all_goals exact ⟨rfl, rfl⟩

theorem PracticeInv.practised (h : PracticeInv w) (hstep : Step w action w')
    (hcalm : Undisturbed ⟨w, action, w'⟩) : Practised ⟨w, action, w'⟩ := by
  by_cases hof : action.ofRecorder = true
  · obtain ⟨hmodel, hans⟩ := hstep.recorder_keeps hof
    refine Practised.of_same h hmodel hans ?_
    rintro i rfl
    cases hof
  · cases action with
    | start picked =>
      cases hstep
      exact practised_start h hcalm
    | repeatQuestion =>
      cases hstep
      exact practised_repeatQuestion h hcalm
    | revealReference =>
      cases hstep
      exact practised_revealReference h
    | next =>
      cases hstep
      exact practised_next h
    | stop =>
      cases hstep
      exact practised_stop h hcalm
    | setFollowUpsEnabled enabled =>
      cases hstep
      exact Practised.of_model (m := { w.model with followUpsEnabled := enabled })
        (h.model.congr rfl rfl rfl h.model.request rfl rfl) (Or.inl rfl) rfl rfl rfl (by simp)
        (Or.inl rfl) (fun _ => rfl)
    | beginAnswer i =>
      simp only [Step, act, Option.ite_none_right_eq_some, Option.some.injEq] at hstep
      obtain ⟨-, rfl⟩ := hstep
      exact practised_beginAnswer h
    | endAnswer i =>
      simp only [Step, act, Option.ite_none_right_eq_some, Option.some.injEq] at hstep
      obtain ⟨-, rfl⟩ := hstep
      exact practised_endAnswer h
    | considerFollowUp i =>
      simp only [Step, act, Option.ite_none_right_eq_some, Option.some.injEq] at hstep
      obtain ⟨-, rfl⟩ := hstep
      exact practised_considerFollowUp h
    | answerBegun i =>
      simp only [Step, act] at hstep
      split at hstep
      · rename_i before begun htask
        cases hstep
        exact practised_answerBegun h htask
      · cases hstep
    | answerEnded i =>
      simp only [Step, act] at hstep
      split at hstep
      · rename_i question htask
        cases hstep
        exact practised_answerEnded h htask
      · cases hstep
    | followUpAnswered i text =>
      simp only [Step, act] at hstep
      split at hstep
      · rename_i request answer asked htask
        cases hstep
        exact practised_followUpAnswered h htask text
      · cases hstep
    | _ => exact absurd rfl hof

theorem PracticeInv.ends_returned (h : PracticeInv w)
    (htask : w.tasks i = .ending question .returned) :
    ∃ w' answer, Step w (.answerEnded i) w' ∧
      w.answering = some (answer.question, answer.recordingId) ∧
        w'.model.answers = w.model.answers ++ [answer] ∧ w'.recorder.active = false ∧
          w'.model.isAnswering = false := by
  have hend := practised_answerEnded h htask
  obtain ⟨answer, hbegun, hanss, -, -, hidle, hans⟩ := hend.answered i rfl
  exact ⟨Practice.finishEnding w i question, answer, by simp [Step, act, htask], hbegun, hanss,
    hidle, hans⟩

theorem PracticeInv.ends_waiting {stage : Ending} (h : PracticeInv w)
    (htask : w.tasks i = .ending question stage) :
    ∃ trace w' answer, Run Step w trace w' ∧
      (∀ e ∈ trace, e.label ∈ [.seals i true, .answerEnded i]) ∧
        w.answering = some (answer.question, answer.recordingId) ∧
          w'.model.answers = w.model.answers ++ [answer] ∧ w'.recorder.active = false ∧
            w'.model.isAnswering = false := by
  cases stage with
  | returned =>
    obtain ⟨w', answer, hstep, hend⟩ := h.ends_returned htask
    exact ⟨_, w', answer, Run.single hstep, by simp, hend⟩
  | stopping id =>
    have hseals : Step w (.seals i true) ((w.setRecorder { w.recorder with
        phase := .sealed id }).setTask i (.ending question .returned)) := by
      simp [Step, act, htask]
    obtain ⟨w', answer, hstep, hend⟩ :=
      (h.step hseals trivial).ends_returned (World.setTask_self _ _ _)
    exact ⟨_, w', answer, (Run.single hseals).snoc hstep, by simp, hend⟩

theorem PracticeInv.endable (h : PracticeInv w) : Endable w := by
  intro hans i hfree
  rcases hfree with hending | ⟨hidle, hnone⟩
  · obtain ⟨question, stage, htask⟩ := Task.isEnding_eq_true.mp hending
    obtain ⟨trace, w', answer, hrun, hlabels, hend⟩ := h.ends_waiting htask
    refine ⟨trace, w', answer, hrun, ?_, hend⟩
    intro e he
    exact List.mem_cons_of_mem _ (hlabels e he)
  · have hgiven : Step w (.endAnswer i) (Practice.endAnswer w i) := by simp [Step, act, hidle]
    obtain ⟨question, id, hold⟩ := h.answering hans
    -- The command gets past its guard.
    have htask : ∃ stage, (Practice.endAnswer w i).tasks i = .ending question stage := by
      unfold Practice.endAnswer
      rw [hold.current]
      simp only [hans, hold.recorder, Bool.and_self, if_true]
      split
      · exact ⟨_, World.setTask_self _ _ _⟩
      · exact ⟨_, World.setTask_self _ _ _⟩
    obtain ⟨stage, htask⟩ := htask
    obtain ⟨trace, w', answer, hrun, hlabels, hbegun, hanss, hend⟩ :=
      (h.step hgiven hnone).ends_waiting htask
    have hsame := practised_endAnswer h (i := i)
    refine ⟨_, w', answer, (Run.single hgiven).append hrun, ?_, ?_, ?_, hend⟩
    · intro e he
      rcases List.mem_append.mp he with hfst | hlat
      · rw [List.mem_singleton.mp hfst]
        exact List.mem_cons_self
      · exact List.mem_cons_of_mem _ (hlabels e hlat)
    · rw [← hbegun]
      exact ((hsame.held hans (by simp)).2).symm
    · rw [hanss,
        show (Practice.endAnswer w i).model.answers = _ from hsame.kept (by simp) (by simp)]

def perform (w : World) : List Action → List (Transition World Action) × World
  | [] => ([], w)
  | action :: rest =>
    match act w action with
    | none => ([], w)
    | some w' => (⟨w, action, w'⟩ :: (perform w' rest).1, (perform w' rest).2)

theorem perform_run (w : World) (actions : List Action) :
    Run Step w (perform w actions).1 (perform w actions).2 := by
  induction actions generalizing w with
  | nil => exact Run.refl
  | cons action rest ih =>
    simp only [perform]
    split
    · exact Run.refl
    · rename_i w' hstep
      exact (Run.single hstep).append (ih w')

theorem forall_perform {P : Transition World Action → Prop} {rest : List Action}
    (hstep : act w action = some w') (hfst : P ⟨w, action, w'⟩)
    (hrest : ∀ e ∈ (perform w' rest).1, P e) : ∀ e ∈ (perform w (action :: rest)).1, P e := by
  simp only [perform, hstep]
  intro e he
  rcases List.mem_cons.mp he with rfl | hlat
  · exact hfst
  · exact hrest e hlat

def sampleQuestion : PracticeQuestion where
  entry := { id := 0, heading := "Q1. Why Rust?", body := "Ownership." }
  prompt := "Why Rust?"

/-- The task `0` begins an answer and the task `1` ends it. -/
def sampleSession : List Action :=
  [.start [sampleQuestion], .beginAnswer 0, .preflights 0, .creates 0, .records 0, .answerBegun 0,
    .endAnswer 1, .seals 1 true, .answerEnded 1, .next]

theorem endless {w' : World} (hcur : w.model.current = none) (hending : NotEnding w)
    (hrun : Run Step w trace w')
    (hlabels : ∀ e ∈ trace, e.label ∈ [.endAnswer i, .seals i true, .answerEnded i]) : w' = w := by
  have hstuck : ∀ action w', action ∈ [.endAnswer i, .seals i true, .answerEnded i] →
      Step w action w' → w' = w := by
    intro action w' hact hstep
    have hnone : ∀ question stage, w.tasks i ≠ .ending question stage := by
      intro question stage htask
      have hfalse := hending i
      rw [htask] at hfalse
      cases hfalse
    simp only [List.mem_cons, List.not_mem_nil, or_false] at hact
    rcases hact with rfl | rfl | rfl
    · simp only [Step, act, endAnswer, hcur, Option.ite_none_right_eq_some,
        Option.some.injEq] at hstep
      exact hstep.2.symm
    · simp only [Step, act] at hstep
      split at hstep
      · exact absurd ‹_› (hnone _ _)
      · cases hstep
    · simp only [Step, act] at hstep
      split at hstep
      · exact absurd ‹_› (hnone _ _)
      · cases hstep
  refine hrun.invariant (I := fun trace s =>
    (∀ e ∈ trace, e.label ∈ [.endAnswer i, .seals i true, .answerEnded i]) → s = w)
      (fun _ => rfl) ?_ hlabels
  intro earl s action s' ih hstep hall
  have hsame := ih fun e he => hall e (List.mem_append_left _ he)
  subst hsame
  exact hstuck action s' (hall ⟨s, action, s'⟩ (by simp)) hstep

/-- The session is stopped while the recording is still starting: the recording
goes on, and no `endAnswer` ends it. -/
def strandedSession : List Action :=
  [.start [sampleQuestion], .beginAnswer 0, .preflights 0, .stop, .creates 0, .records 0,
    .answerBegun 0]

end TamForge.Practice
