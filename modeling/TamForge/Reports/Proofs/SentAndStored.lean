import Mathlib.Data.List.Nodup
import TamForge.Reports.Process

/-!
# What was sent is what is stored

An attempt hands its text to the channel before it stores its outcome, and
never asks whether the period has a report.  So the text that was sent is the
stored one exactly in the runs where no attempt sends for a period that another
attempt has sent for, and none stops between sending and storing.
-/

namespace TamForge.Reports

open Models ProofSupport

variable {s s' : State} {event : ProcessEvent} {i : Nat} {period : Period} {phase : Phase}
  {draft : Draft} {delivery : Delivery} {trace : List (Transition State ProcessEvent)}

/-- Every text that was sent is that of the stored report of its period, or of the report
that its attempt is about to store, and nothing was sent twice. -/
structure SentIsStored (s : State) : Prop where
  stored : ∀ message ∈ s.sent,
    (∃ report ∈ s.reports, report.period = message.period ∧
      message.body = report.outcome.render message.period) ∨
    ∃ i draft delivery, s.attempts i = some (message.period, .handed draft delivery) ∧
      message.body = draft.outcome.render message.period
  once : (s.sent.map Message.period).Nodup

/-- The attempt has handed its text to the channel and not stored its report yet. -/
def Unsettled (s : State) (i : Nat) (period : Period) : Prop :=
  ∃ draft delivery, s.attempts i = some (period, .handed draft delivery)

/-- An attempt sends only for a period that has no report and no other attempt that has
sent and not stored yet; and it does not stop between sending and storing. -/
def Undisturbed (s : State) : ProcessEvent → Prop
  | .send i _ => ∀ period phase, s.attempts i = some (period, phase) →
      (∀ report ∈ s.reports, report.period ≠ period) ∧ ∀ j, j ≠ i → ¬Unsettled s j period
  | .fail i => ∀ period, ¬Unsettled s i period
  | .start _ _ | .compose _ _ | .store _ _ => True

/-! ## What every run keeps -/

/-- Messages come from attempts that have sent; whoever has sent or stored left a message. -/
structure ProcessInv (s : State) : Prop where
  sender : ∀ message ∈ s.sent, (∃ draft delivery,
      s.attempts message.attempt = some (message.period, .handed draft delivery) ∧
        message.body = draft.outcome.render message.period) ∨
    s.attempts message.attempt = some (message.period, .ended)
  unsettled : ∀ i period, Unsettled s i period →
    ∃ message ∈ s.sent, message.attempt = i ∧ message.period = period
  reported : ∀ report ∈ s.reports, ∃ message ∈ s.sent, message.period = report.period ∧
    s.attempts message.attempt = some (message.period, .ended)

theorem setPhase_self : (s.setPhase i period phase).attempts i = some (period, phase) := by
  simp [State.setPhase]

variable {j : Nat}

theorem setPhase_of_ne (h : j ≠ i) : (s.setPhase i period phase).attempts j = s.attempts j := by
  simp [State.setPhase, h]

@[simp] theorem setPhase_reports : (s.setPhase i period phase).reports = s.reports := rfl

@[simp] theorem setPhase_sent : (s.setPhase i period phase).sent = s.sent := rfl

/-- An attempt that has neither sent nor ended moves on without sending. -/
structure Early (s : State) (i : Nat) : Prop where
  not_handed : ∀ period, ¬Unsettled s i period
  not_ended : ∀ period, s.attempts i ≠ some (period, .ended)

variable {message : Message}

theorem Early.not_sender (h : Early s i) (hinv : ProcessInv s) (hmsg : message ∈ s.sent) :
    message.attempt ≠ i := by
  rintro rfl
  rcases hinv.sender message hmsg with ⟨draft, delivery, hhand, -⟩ | hend
  · exact h.not_handed _ ⟨draft, delivery, hhand⟩
  · exact h.not_ended _ hend

theorem early_of_none (h : s.attempts i = none) : Early s i := by
  refine ⟨?_, ?_⟩
  · rintro period ⟨draft, delivery, hhand⟩
    rw [h] at hhand
    cases hhand
  · intro period hend
    rw [h] at hend
    cases hend

theorem early_of_phase (h : s.attempts i = some (period, phase))
    (hph : (∀ draft delivery, phase ≠ .handed draft delivery) ∧ phase ≠ .ended) :
    Early s i := by
  refine ⟨?_, ?_⟩
  · rintro other ⟨draft, delivery, hhand⟩
    rw [h] at hhand
    cases hhand
    exact hph.1 draft delivery rfl
  · intro other hend
    rw [h] at hend
    cases hend
    exact hph.2 rfl

theorem unsettled_setPhase {other : Period} (hne : j ≠ i) :
    Unsettled (s.setPhase i period phase) j other ↔ Unsettled s j other := by
  unfold Unsettled
  rw [setPhase_of_ne hne]

theorem unsettled_setPhase_self {other : Period}
    (h : Unsettled (s.setPhase i period phase) i other) :
    ∃ draft delivery, phase = .handed draft delivery ∧ other = period := by
  obtain ⟨draft, delivery, hhand⟩ := h
  rw [setPhase_self] at hhand
  cases hhand
  exact ⟨draft, delivery, rfl, rfl⟩

theorem Early.setPhase_inv (h : Early s i) (hinv : ProcessInv s)
    (hph : ∀ draft delivery, phase ≠ .handed draft delivery) :
    ProcessInv (s.setPhase i period phase) := by
  refine ⟨?_, ?_, ?_⟩
  · intro message hmsg
    rw [setPhase_of_ne (h.not_sender hinv hmsg)]
    exact hinv.sender message hmsg
  · intro j other hunset
    by_cases hj : j = i
    · subst hj
      obtain ⟨draft, delivery, hhand, -⟩ := unsettled_setPhase_self hunset
      exact absurd hhand (hph draft delivery)
    · exact hinv.unsettled j other ((unsettled_setPhase hj).mp hunset)
  · intro report hrep
    obtain ⟨message, hmsg, hper, hend⟩ := hinv.reported report hrep
    refine ⟨message, hmsg, hper, ?_⟩
    rw [setPhase_of_ne (h.not_sender hinv hmsg)]
    exact hend

theorem ProcessInv.ended (hinv : ProcessInv s) (h : s.attempts i = some (period, phase)) :
    ProcessInv (s.setPhase i period .ended) := by
  have hsame : ∀ message ∈ s.sent, message.attempt = i → message.period = period := by
    intro message hmsg hatt
    rcases hinv.sender message hmsg with ⟨draft, delivery, hhand, -⟩ | hend
    · rw [hatt, h] at hhand
      exact ((Prod.mk.inj (Option.some.inj hhand)).1).symm
    · rw [hatt, h] at hend
      exact ((Prod.mk.inj (Option.some.inj hend)).1).symm
  refine ⟨?_, ?_, ?_⟩
  · intro message hmsg
    by_cases hatt : message.attempt = i
    · right
      rw [hatt, setPhase_self, hsame message hmsg hatt]
    · rw [setPhase_of_ne hatt]
      exact hinv.sender message hmsg
  · intro j other hunset
    by_cases hj : j = i
    · subst hj
      obtain ⟨draft, delivery, hhand, -⟩ := unsettled_setPhase_self hunset
      cases hhand
    · exact hinv.unsettled j other ((unsettled_setPhase hj).mp hunset)
  · intro report hrep
    obtain ⟨message, hmsg, hper, hend⟩ := hinv.reported report hrep
    refine ⟨message, hmsg, hper, ?_⟩
    by_cases hatt : message.attempt = i
    · rw [hatt, setPhase_self, hsame message hmsg hatt]
    · rw [setPhase_of_ne hatt]
      exact hend

variable {reports : List StoredReport} {row report : StoredReport}

theorem mem_upsert (h : report ∈ State.upsert reports row) : report = row ∨ report ∈ reports := by
  unfold State.upsert at h
  split at h
  · obtain ⟨old, hold, hrep⟩ := List.mem_map.mp h
    split at hrep
    · exact Or.inl hrep.symm
    · exact Or.inr (hrep ▸ hold)
  · rcases List.mem_append.mp h with hold | hnew
    · exact Or.inr hold
    · exact Or.inl (List.mem_singleton.mp hnew)

theorem row_mem_upsert (reports : List StoredReport) (row : StoredReport) :
    row ∈ State.upsert reports row := by
  unfold State.upsert
  split
  · rename_i hany
    obtain ⟨old, hold, hper⟩ := List.any_eq_true.mp hany
    exact List.mem_map.mpr ⟨old, hold, by rw [if_pos (of_decide_eq_true hper)]⟩
  · simp

theorem mem_upsert_of_ne (h : report ∈ reports) (hne : report.period ≠ row.period) :
    report ∈ State.upsert reports row := by
  unfold State.upsert
  split
  · exact List.mem_map.mpr ⟨report, h, by rw [if_neg hne]⟩
  · exact List.mem_append_left _ h

theorem ProcessStep.inv (h : ProcessStep s event s') (hinv : ProcessInv s) : ProcessInv s' := by
  cases h with
  | start hnone => exact (early_of_none hnone).setPhase_inv hinv (by simp)
  | compose hph _ => exact (early_of_phase hph (by simp)).setPhase_inv hinv (by simp)
  | @send i period draft delivery hph =>
    have hearly : Early s i := early_of_phase hph (by simp)
    refine ⟨?_, ?_, ?_⟩
    · intro message hmsg
      rcases List.mem_append.mp hmsg with hold | hnew
      · have hne := hearly.not_sender hinv hold
        change (∃ draft delivery, (s.setPhase _ _ _).attempts _ = _ ∧ _) ∨
          (s.setPhase _ _ _).attempts _ = _
        rw [setPhase_of_ne hne]
        exact hinv.sender message hold
      · obtain rfl := List.mem_singleton.mp hnew
        exact Or.inl ⟨draft, delivery, setPhase_self, rfl⟩
    · intro j other hunset
      by_cases hj : j = i
      · subst hj
        obtain ⟨_, _, -, rfl⟩ := unsettled_setPhase_self hunset
        exact ⟨⟨j, other, draft.outcome.render other⟩, by simp, rfl, rfl⟩
      · obtain ⟨message, hmsg, hatt, hper⟩ :=
          hinv.unsettled j other ((unsettled_setPhase hj).mp hunset)
        exact ⟨message, List.mem_append_left _ hmsg, hatt, hper⟩
    · intro report hrep
      obtain ⟨message, hmsg, hper, hend⟩ := hinv.reported report hrep
      refine ⟨message, List.mem_append_left _ hmsg, hper, ?_⟩
      change (s.setPhase _ _ _).attempts _ = _
      rw [setPhase_of_ne (hearly.not_sender hinv hmsg)]
      exact hend
  | @store i period draft delivery now hph =>
    have hinv' := hinv.ended hph
    refine ⟨hinv'.sender, hinv'.unsettled, ?_⟩
    intro report hrep
    rcases mem_upsert hrep with rfl | hold
    · obtain ⟨message, hmsg, hatt, hper⟩ :=
        hinv.unsettled i period ⟨draft, delivery, hph⟩
      refine ⟨message, hmsg, hper, ?_⟩
      change (s.setPhase _ _ _).attempts _ = _
      rw [hatt, setPhase_self, hper]
    · exact hinv'.reported report hold
  | fail hph => exact hinv.ended hph

theorem processInv_initial : ProcessInv State.initial := by
  refine ⟨by simp [State.initial], ?_, by simp [State.initial]⟩
  rintro i period ⟨draft, delivery, hhand⟩
  cases hhand

theorem sentIsStored_initial : SentIsStored State.initial :=
  ⟨by simp [State.initial], by simp [State.initial]⟩

theorem SentIsStored.unique (h : SentIsStored s) {other : Message} (hmsg : message ∈ s.sent)
    (ho : other ∈ s.sent) (hper : message.period = other.period) : message = other :=
  List.inj_on_of_nodup_map h.once hmsg ho hper

theorem SentIsStored.setPhase (h : SentIsStored s) (hquiet : ∀ period, ¬Unsettled s i period) :
    SentIsStored (s.setPhase i period phase) := by
  refine ⟨?_, h.once⟩
  intro message hmsg
  rcases h.stored message hmsg with hsto | ⟨j, draft, delivery, hhand, hbody⟩
  · exact Or.inl hsto
  · have hne : j ≠ i := by
      rintro rfl
      exact hquiet _ ⟨draft, delivery, hhand⟩
    exact Or.inr ⟨j, draft, delivery, by rw [setPhase_of_ne hne]; exact hhand, hbody⟩

theorem SentIsStored.unsent (h : SentIsStored s)
    (hunreported : ∀ report ∈ s.reports, report.period ≠ period)
    (hsetl : ∀ j, ¬Unsettled s j period) : period ∉ s.sent.map Message.period := by
  intro hsent
  obtain ⟨message, hmsg, rfl⟩ := List.mem_map.mp hsent
  rcases h.stored message hmsg with ⟨report, hrep, hper, -⟩ | ⟨j, draft, delivery, hhand, -⟩
  · exact hunreported report hrep hper
  · exact hsetl j ⟨draft, delivery, hhand⟩

theorem ProcessStep.sentIsStored (h : ProcessStep s event s') (hinv : ProcessInv s)
    (hgood : SentIsStored s) (hcond : Undisturbed s event) : SentIsStored s' := by
  cases h with
  | start hnone => exact hgood.setPhase (early_of_none hnone).not_handed
  | compose hph _ => exact hgood.setPhase (early_of_phase hph (by simp)).not_handed
  | @send i period draft delivery hph =>
    have hearly : Early s i := early_of_phase hph (by simp)
    obtain ⟨hunreported, hsetl⟩ := hcond period _ hph
    have hunsent : period ∉ s.sent.map Message.period := by
      refine hgood.unsent hunreported ?_
      intro j hunset
      by_cases hj : j = i
      · subst hj
        exact hearly.not_handed _ hunset
      · exact hsetl j hj hunset
    refine ⟨?_, ?_⟩
    · intro message hmsg
      rcases List.mem_append.mp hmsg with hold | hnew
      · exact (hgood.setPhase hearly.not_handed).stored message hold
      · obtain rfl := List.mem_singleton.mp hnew
        exact Or.inr ⟨i, draft, delivery, setPhase_self, rfl⟩
    · change ((s.sent ++ [_]).map Message.period).Nodup
      rw [List.map_append, List.map_singleton, List.nodup_append]
      refine ⟨hgood.once, List.nodup_singleton _, ?_⟩
      rintro a ha b hb rfl
      obtain rfl := List.mem_singleton.mp hb
      exact hunsent ha
  | @store i period draft delivery now hph =>
    refine ⟨?_, hgood.once⟩
    intro message hmsg
    by_cases hper : message.period = period
    · -- the one text of the period is that of this attempt
      obtain ⟨own, hown, hatt, hownPer⟩ :=
        hinv.unsettled i period ⟨draft, delivery, hph⟩
      obtain rfl := hgood.unique hmsg hown (hper.trans hownPer.symm)
      refine Or.inl ⟨State.row period draft delivery now, row_mem_upsert _ _, hper.symm, ?_⟩
      rcases hinv.sender message hmsg with ⟨sentDraft, _, hhand, hbody⟩ | hend
      · rw [hatt, hph] at hhand
        cases hhand
        exact hbody
      · rw [hatt, hph] at hend
        cases hend
    · rcases hgood.stored message hmsg with
        ⟨report, hrep, hsame, hbody⟩ | ⟨j, other, otherDelivery, hhand, hbody⟩
      · refine Or.inl ⟨report, mem_upsert_of_ne hrep ?_, hsame, hbody⟩
        rw [hsame]
        exact hper
      · have hne : j ≠ i := by
          rintro rfl
          rw [hph] at hhand
          cases hhand
          exact hper rfl
        refine Or.inr ⟨j, other, otherDelivery, ?_, hbody⟩
        change (s.setPhase _ _ _).attempts _ = _
        rw [setPhase_of_ne hne]
        exact hhand
  | fail _ => exact hgood.setPhase hcond

theorem ProcessStep.undisturbed (h : ProcessStep s event s') (hinv : ProcessInv s)
    (hgood : SentIsStored s') : Undisturbed s event := by
  cases h with
  | start _ => trivial
  | compose _ _ => trivial
  | store _ => trivial
  | @send i period draft delivery hph =>
    -- a second text for the period would be one too many
    have hunsent : ∀ message ∈ s.sent, message.period ≠ period := by
      intro message hmsg hper
      have hearly : Early s i := early_of_phase hph (by simp)
      have hsame := hgood.unique (List.mem_append_left _ hmsg)
        (List.mem_append_right _ (List.mem_singleton_self _)) hper
      exact hearly.not_sender hinv hmsg (by rw [hsame])
    intro other phase ho
    rw [hph] at ho
    cases ho
    refine ⟨?_, ?_⟩
    · intro report hrep hper
      obtain ⟨message, hmsg, hsame, -⟩ := hinv.reported report hrep
      exact hunsent message hmsg (hsame.trans hper)
    · intro j _ hunset
      obtain ⟨message, hmsg, -, hper⟩ := hinv.unsettled j period hunset
      exact hunsent message hmsg hper
  | @fail i period phase hph =>
    intro other hunset
    obtain ⟨draft, delivery, hhand⟩ := hunset
    obtain ⟨own, hown, hatt, hper⟩ := hinv.unsettled i other ⟨draft, delivery, hhand⟩
    have halone : ∀ message ∈ s.sent, message.period = other → message.attempt = i := by
      intro message hmsg hsame
      rw [hgood.unique hmsg hown (hsame.trans hper.symm)]
      exact hatt
    rcases hgood.stored own hown with
      ⟨report, hrep, hsame, -⟩ | ⟨j, otherDraft, otherDelivery, hpend, -⟩
    · obtain ⟨message, hmsg, hmsgPer, hend⟩ := hinv.reported report hrep
      have hsender := halone message hmsg (hmsgPer.trans (hsame.trans hper))
      rw [hsender, hhand] at hend
      cases hend
    · by_cases hj : j = i
      · subst hj
        rw [setPhase_self] at hpend
        cases hpend
      · rw [setPhase_of_ne hj, hper] at hpend
        obtain ⟨message, hmsg, hsender, hsame⟩ :=
          hinv.unsettled j other ⟨_, _, hpend⟩
        exact hj (hsender.symm.trans (halone message hmsg hsame))

/-- A run sends exactly what it stores if and only if no attempt is disturbed. -/
theorem sentIsStored_iff_undisturbed (hrun : Run ProcessStep State.initial trace s) :
    (∀ e ∈ trace, SentIsStored e.after) ↔ ∀ e ∈ trace, Undisturbed e.before e.label := by
  have hinv : ∀ {trace s}, Run ProcessStep State.initial trace s → ProcessInv s := by
    intro trace s hrun
    exact hrun.state_invariant processInv_initial fun _ _ _ hinv h => h.inv hinv
  constructor
  · intro hgood e he
    obtain ⟨before, after, -, hbefore, hstep, -⟩ := hrun.split he
    exact hstep.undisturbed (hinv hbefore) (hgood e he)
  · intro hcond
    have hstates : (∀ e ∈ trace, SentIsStored e.after) ∧ SentIsStored s := by
      refine Run.invariant (I := fun trace s => (∀ e ∈ trace, Undisturbed e.before e.label) →
        (∀ e ∈ trace, SentIsStored e.after) ∧ SentIsStored s ∧ ProcessInv s) hrun ?_ ?_ hcond
        |>.imp_right And.left
      · exact fun _ => ⟨by simp, sentIsStored_initial, processInv_initial⟩
      · intro trace s event t ih hstep hall
        obtain ⟨hearlier, hgood, hinv⟩ := ih fun e he => hall e (List.mem_append_left _ he)
        have hlast := hstep.sentIsStored hinv hgood (hall ⟨s, event, t⟩ (by simp))
        refine ⟨?_, hlast, hstep.inv hinv⟩
        intro e he
        rcases List.mem_append.mp he with hbefore | hnew
        · exact hearlier e hbefore
        · obtain rfl := List.mem_singleton.mp hnew
          exact hlast
    exact hstates.1

/-! ## Sample attempts -/

/-- An answer for the week of 24 August 2026. -/
def sampleDraft (headline : String) : Draft where
  model := "claude"
  promptVersion := "v1"
  inputs := .null
  outcome := .weekly {
    headline := headline
    did := ["two drills"]
    learned := ["weak forms"]
    improved := ["pace"]
    skills := [⟨"fluency", .up, "steadier"⟩]
    suggestions := [⟨"one more drill", "pace", "fluency"⟩]
    risks := []
    decisionForFrank := "keep the plan" }

def samplePeriod : Period := .week 1 739852

def sampleDelivery : Delivery := ⟨.sent, "resend accepted (200)"⟩

/-- The state in which attempt `i` has handed over the text of `draft`. -/
def handOver (s : State) (i : Nat) (draft : Draft) : State :=
  { ((s.setPhase i samplePeriod .composing).setPhase i samplePeriod
      (.composed draft)).setPhase i samplePeriod (.handed draft sampleDelivery) with
    sent := s.sent ++ [⟨i, samplePeriod, draft.outcome.render samplePeriod⟩] }

def settle (s : State) (i : Nat) (draft : Draft) : State :=
  { s.setPhase i samplePeriod .ended with
    reports := State.upsert s.reports (State.row samplePeriod draft sampleDelivery 0) }

theorem run_handOver (draft : Draft) (hnew : s.attempts i = none)
    (hanss : draft.outcome.answers samplePeriod = true) :
    ∃ trace, Run ProcessStep s trace (handOver s i draft) ∧
      ∀ e ∈ trace, (∀ j delivery, e.label = .send j delivery →
        j = i ∧ e.before.reports = s.reports ∧ ∀ k, k ≠ i → e.before.attempts k = s.attempts k) ∧
        ∀ j, e.label ≠ .fail j := by
  refine ⟨_, ((Run.single (.start hnew)).snoc
    (@ProcessStep.compose _ _ _ draft setPhase_self hanss)).snoc
    (@ProcessStep.send _ _ _ _ sampleDelivery setPhase_self), ?_⟩
  intro e he
  simp only [List.cons_append, List.nil_append, List.mem_cons, List.not_mem_nil, or_false] at he
  rcases he with rfl | rfl | rfl
  · simp
  · simp
  · refine ⟨?_, by simp⟩
    rintro j delivery hlab
    cases hlab
    exact ⟨rfl, rfl, fun k hk => by rw [setPhase_of_ne hk, setPhase_of_ne hk]⟩

theorem sentIsStored_iff_undisturbed_sample :
    ∃ trace, Run ProcessStep State.initial trace
        (settle (handOver State.initial 0 (sampleDraft "a good week")) 0
          (sampleDraft "a good week")) ∧
      ∀ e ∈ trace, SentIsStored e.after := by
  obtain ⟨trace, hrun, htrace⟩ :=
    run_handOver (s := State.initial) (i := 0) (sampleDraft "a good week") rfl rfl
  have hall := hrun.snoc (@ProcessStep.store _ _ _ _ _ 0 setPhase_self)
  refine ⟨_, hall, (sentIsStored_iff_undisturbed hall).mpr ?_⟩
  intro e he
  rcases List.mem_append.mp he with hearly | hlast
  · obtain ⟨hsend, hfail⟩ := htrace e hearly
    generalize hlabel : e.label = event
    cases event with
    | send j delivery =>
      obtain ⟨rfl, hreports, hothers⟩ := hsend j delivery hlabel
      intro period phase _
      refine ⟨by rw [hreports]; simp [State.initial], ?_⟩
      rintro k hk ⟨draft, _, hhanded⟩
      rw [hothers k hk] at hhanded
      cases hhanded
    | fail j => exact absurd hlabel (hfail j)
    | start _ _ => trivial
    | compose _ _ => trivial
    | store _ _ => trivial
  · obtain rfl := List.mem_singleton.mp hlast
    trivial

/-- A crash after sending: the retry composes another text, sends it as well and stores
only that one. -/
theorem crash_after_send_sends_twice :
    ∃ trace s, Run ProcessStep State.initial trace s ∧ ¬SentIsStored s ∧
      s.sent.map Message.period = [samplePeriod, samplePeriod] ∧
      ∃ message ∈ s.sent, ∀ report ∈ s.reports,
        message.body ≠ report.outcome.render samplePeriod := by
  obtain ⟨first, hfirst, -⟩ :=
    run_handOver (s := State.initial) (i := 0) (sampleDraft "a good week") rfl rfl
  have hcrash := hfirst.snoc (.fail setPhase_self)
  obtain ⟨second, hsecond, -⟩ := run_handOver
    (s := (handOver State.initial 0 (sampleDraft "a good week")).setPhase 0 samplePeriod .ended)
    (i := 1) (sampleDraft "a hard week") rfl rfl
  have hall := (hcrash.append hsecond).snoc (@ProcessStep.store _ _ _ _ _ 0 setPhase_self)
  refine ⟨_, _, hall, ?_, rfl, ⟨0, samplePeriod,
    (sampleDraft "a good week").outcome.render samplePeriod⟩, by simp [handOver, State.initial],
    ?_⟩
  · intro hgood
    exact absurd hgood.once (by decide)
  · intro report hreport
    have hmem : report ∈ State.upsert []
        (State.row samplePeriod (sampleDraft "a hard week") sampleDelivery 0) := hreport
    rcases mem_upsert hmem with rfl | hold
    · decide +kernel
    · cases hold

end TamForge.Reports
