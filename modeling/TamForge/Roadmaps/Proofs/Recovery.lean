import TamForge.Roadmaps.Mirroring

/-!
# Mirrors stay recoverable

The listeners keep every change of a mirror status inside the transition table
and a synced version as it is, in every run.  A version is left without a way
forward only by a call that stopped on its way, or by a mirror whose reference
the table does not take.
-/

namespace TamForge.Roadmaps

open Models ProofSupport

variable {version after : RoadmapVersion} {status : MirrorStatus} {ref : Option String}
  {code : Option MirrorErrorCode}

structure Updated (version : RoadmapVersion) (status : MirrorStatus) (ref : Option String)
    (code : Option MirrorErrorCode) (after : RoadmapVersion) : Prop where
  after_eq : after =
    { version with mirrorStatus := status, mirrorRef := ref, mirrorErrorCode := code }
  allowed : version.mirrorStatus = status ∨ (version.mirrorStatus, status) ∈ mirrorTransitions
  final : version.mirrorStatus.terminal = true → after = version

theorem setMirror_ok (h : setMirror version status ref code = .ok after) :
    Updated version status ref code after := by
  simp only [setMirror, bind_ok_iff] at h
  obtain ⟨_, hguards, ha⟩ := h
  cases ha
  have hgrd := raiseFirst_eq_ok.mp hguards
  simp only [List.forall_mem_cons, Bool.and_eq_false_iff, Bool.or_eq_false_iff,
    bne_eq_false_iff_eq, Bool.not_eq_false', List.contains_iff_mem] at hgrd
  obtain ⟨hterm, hmov, -, -⟩ := hgrd
  constructor
  · rfl
  · exact hmov
  · intro hfinal
    rcases hterm with ⟨⟨hcode, href⟩, hst⟩ | hopen
    · rw [← hcode, ← href, ← hst]
    · rw [hfinal] at hopen
      cases hopen

/-- From a status that may move to it, an update with fields that fit is
accepted. -/
theorem setMirror_accepts (hopen : version.mirrorStatus.terminal = false)
    (hok : version.mirrorStatus = status ∨
      (version.mirrorStatus, status) ∈ mirrorTransitions)
    (hcoh : mirrorCoherent status ref code = true) (hbounded : mirrorRefBounded ref = true) :
    setMirror version status ref code = .ok
      { version with mirrorStatus := status, mirrorRef := ref, mirrorErrorCode := code } := by
  have hmov : ((version.mirrorStatus != status) &&
      !mirrorTransitions.contains (version.mirrorStatus, status)) = false := by
    rcases hok with hsame | hmem
    · rw [hsame, bne_self_eq_false, Bool.false_and]
    · rw [List.contains_iff_mem.mpr hmem, Bool.not_true, Bool.and_false]
  have hgrd : raiseFirst [
      ((version.mirrorErrorCode != code || version.mirrorRef != ref ||
        version.mirrorStatus != status) && version.mirrorStatus.terminal,
        MirrorError.workflow "terminal roadmap mirror is immutable"),
      (version.mirrorStatus != status &&
        !mirrorTransitions.contains (version.mirrorStatus, status),
        .workflow "invalid roadmap mirror transition"),
      ((version.mirrorErrorCode != code || version.mirrorRef != ref ||
        version.mirrorStatus != status) && !mirrorCoherent status ref code,
        .workflow "roadmap mirror fields are not coherent"),
      ((version.mirrorErrorCode != code || version.mirrorRef != ref ||
        version.mirrorStatus != status) && !mirrorRefBounded ref, .unavailable)] = .ok () := by
    apply raiseFirst_eq_ok.mpr
    simp only [List.forall_mem_cons, hopen, hmov, hcoh, hbounded, Bool.and_false,
      Bool.not_true, true_and, List.not_mem_nil, false_implies, implies_true]
  simp only [setMirror, hgrd]
  rfl

/-! ## What ends a call -/

/-- The reference is one that `finish_mirror` can store. -/
def MirrorOutcome.fits : MirrorOutcome → Bool
  | .mirrored ref => mirrorCoherent .synced (some ref) none && mirrorRefBounded (some ref)
  | .failed _ => true

variable {outcome : MirrorOutcome}

theorem endMirror_syncing (hsyncing : version.mirrorStatus = .syncing) (hfits : outcome.fits = true)
    :
    ∃ after, endMirror version outcome = .ok after ∧
      (after.mirrorStatus = .synced ∨ after.mirrorStatus = .failed) := by
  have hopen : version.mirrorStatus.terminal = false := by rw [hsyncing]; rfl
  cases outcome with
  | mirrored ref =>
    simp only [MirrorOutcome.fits, Bool.and_eq_true] at hfits
    have hok : (version.mirrorStatus, MirrorStatus.synced) ∈ mirrorTransitions := by
      rw [hsyncing]
      decide
    exact ⟨_, setMirror_accepts hopen (Or.inr hok) hfits.1 hfits.2, Or.inl rfl⟩
  | failed code =>
    have hok : (version.mirrorStatus, MirrorStatus.failed) ∈ mirrorTransitions := by
      rw [hsyncing]
      decide
    exact ⟨_, setMirror_accepts hopen (Or.inr hok) rfl rfl, Or.inr rfl⟩

def MirrorEvent.stops : MirrorEvent → Option Nat
  | .crashed call => some call
  | .ended call outcome => if outcome.fits then none else some call
  | .approved _ | .retried _ | .refused _ | .begun _ => none

/-- The version does not need the call: its mirror is not on the way, or another
call waits for it. -/
def Mirroring.spares (state : Mirroring) (call : Nat) : Bool :=
  state.version.all (fun version =>
    version.mirrorStatus != .pending && version.mirrorStatus != .syncing) ||
  state.calls.any fun other => other.id != call && other.phase == .mirroring

def Unbroken (step : Transition Mirroring MirrorEvent) : Prop :=
  step.label.stops.all step.before.spares = true

instance : DecidablePred Unbroken := fun _ => inferInstanceAs (Decidable (_ = true))

/-! ## One step -/

structure Kept (before after : RoadmapVersion) : Prop where
  allowed : before.mirrorStatus = after.mirrorStatus ∨
    (before.mirrorStatus, after.mirrorStatus) ∈ mirrorTransitions
  synced : before.mirrorStatus = .synced → after = before

theorem Kept.refl (version : RoadmapVersion) : Kept version version :=
  ⟨Or.inl rfl, fun _ => rfl⟩

theorem Updated.kept (h : Updated version status ref code after) : Kept version after := by
  constructor
  · rw [h.after_eq]
    exact h.allowed
  · intro hsynced
    apply h.final
    rw [hsynced]
    rfl

theorem endMirror_kept (h : endMirror version outcome = .ok after) : Kept version after := by
  cases outcome with
  | mirrored ref => exact (setMirror_ok h).kept
  | failed code => exact (setMirror_ok h).kept

variable {state : Mirroring} {call : Nat}

theorem Mirroring.write_version {res : Except MirrorError RoadmapVersion} {next : Option Phase}
    (hf : state.version = some version)
    (hkept : ∀ written, res = .ok written → Kept version written) :
    ∃ after, (state.write call res next).version = some after ∧ Kept version after := by
  cases res with
  | error error => exact ⟨version, hf, Kept.refl version⟩
  | ok written => exact ⟨written, rfl, hkept written rfl⟩

variable {event : MirrorEvent}

theorem MirrorStep.kept {next : Mirroring} (h : MirrorStep state event next)
    (hf : state.version = some version) :
    ∃ after, next.version = some after ∧ Kept version after := by
  cases h with
  | approved => cases hf
  | retried found accepted fresh => exact ⟨version, hf, Kept.refl version⟩
  | refused found refused => exact ⟨version, hf, Kept.refl version⟩
  | begun found under_way =>
    obtain rfl := Option.some.inj (found.symm.trans hf)
    exact Mirroring.write_version hf fun _ hwr => (setMirror_ok hwr).kept
  | ended outcome found under_way =>
    obtain rfl := Option.some.inj (found.symm.trans hf)
    exact Mirroring.write_version hf fun _ hwr => endMirror_kept hwr
  | crashed under_way => exact ⟨version, hf, Kept.refl version⟩

/-! ## Whole runs -/

structure Attended (state : Mirroring) : Prop where
  pending : ∀ version, state.version = some version → version.mirrorStatus = .pending →
    state.calls ≠ [] ∧ ∀ call ∈ state.calls, call.phase = .beginning
  syncing : ∀ version, state.version = some version → version.mirrorStatus = .syncing →
    ∃ call ∈ state.calls, call.phase = .mirroring
  required : ∀ version, state.version = some version → version.mirrorStatus ≠ .notRequired

theorem attended_of_settled (hf : state.version = some version)
    (hsetl : version.mirrorStatus = .synced ∨ version.mirrorStatus = .failed) :
    Attended state := by
  constructor
  all_goals
    intro other ho
    obtain rfl := Option.some.inj (hf.symm.trans ho)
    rcases hsetl with hst | hst <;> simp [hst]

theorem Attended.drop (h : Attended state) (hspares : state.spares call = true) :
    Attended (state.drop call) := by
  simp only [Mirroring.spares, Bool.or_eq_true, List.any_eq_true, Bool.and_eq_true,
    bne_iff_ne, beq_iff_eq] at hspares
  constructor
  · intro version hf hpend
    rw [show state.version = some version from hf] at hspares
    rcases hspares with hmov | ⟨other, hmem, -, hmirroring⟩
    · simp [hpend] at hmov
    · have hbeg := (h.pending version hf hpend).2 other hmem
      rw [hmirroring] at hbeg
      cases hbeg
  · intro version hf hsyncing
    rw [show state.version = some version from hf] at hspares
    rcases hspares with hmov | ⟨other, hmem, ho, hmirroring⟩
    · simp [hsyncing] at hmov
    · refine ⟨other, List.mem_filter.mpr ⟨hmem, ?_⟩, hmirroring⟩
      exact bne_iff_ne.mpr ho
  · exact h.required

theorem beginMirror_error {error : MirrorError} (h : beginMirror version = .error error) :
    version.mirrorStatus.terminal = true := by
  by_contra hopen
  have hopen := Bool.eq_false_iff.mpr hopen
  have hok : version.mirrorStatus = .syncing ∨
      (version.mirrorStatus, MirrorStatus.syncing) ∈ mirrorTransitions := by
    cases hst : version.mirrorStatus with
    | synced | notRequired =>
      rw [hst] at hopen
      cases hopen
    | pending | syncing | failed => decide
  rw [beginMirror, setMirror_accepts hopen hok rfl rfl] at h
  cases h

theorem endMirror_status (h : endMirror version outcome = .ok after) :
    after.mirrorStatus = .synced ∨ after.mirrorStatus = .failed := by
  cases outcome with
  | mirrored ref =>
    have ha := (setMirror_ok h).after_eq
    exact Or.inl (congrArg RoadmapVersion.mirrorStatus ha)
  | failed code =>
    have ha := (setMirror_ok h).after_eq
    exact Or.inr (congrArg RoadmapVersion.mirrorStatus ha)

theorem Attended.begun (h : Attended state) (hf : state.version = some version) :
    Attended (state.write call (beginMirror version) (some .mirroring)) := by
  cases hbegin : beginMirror version with
  | error error =>
    have hfinal := beginMirror_error hbegin
    have hreqd := h.required version hf
    have hsame : (state.write call (.error error) (some .mirroring)).version = some version :=
      hf
    apply attended_of_settled hsame
    cases hst : version.mirrorStatus with
    | synced => exact Or.inl rfl
    | notRequired => exact absurd hst hreqd
    | pending | syncing | failed =>
      rw [hst] at hfinal
      cases hfinal
  | ok after =>
    have hst : after.mirrorStatus = .syncing :=
      congrArg RoadmapVersion.mirrorStatus (setMirror_ok hbegin).after_eq
    constructor
    · intro written hwr hpend
      cases hwr
      rw [hst] at hpend
      cases hpend
    · intro _ _ _
      exact ⟨⟨call, .mirroring⟩, by simp [Mirroring.write], rfl⟩
    · intro written hwr
      cases hwr
      simp [hst]

theorem Attended.ended (h : Attended state) (hf : state.version = some version)
    (hcall : ⟨call, .mirroring⟩ ∈ state.calls)
    (hspares : outcome.fits = false → state.spares call = true) :
    Attended (state.write call (endMirror version outcome) none) := by
  cases hend : endMirror version outcome with
  | ok after => exact attended_of_settled rfl (endMirror_status hend)
  | error error =>
    cases hfits : outcome.fits with
    | false => exact h.drop (hspares hfits)
    | true =>
      have hsame : (state.write call (.error error) none).version = some version := hf
      apply attended_of_settled hsame
      cases hst : version.mirrorStatus with
      | synced => exact Or.inl rfl
      | failed => exact Or.inr rfl
      | notRequired => exact absurd hst (h.required version hf)
      | pending =>
        have hph := (h.pending version hf hst).2 _ hcall
        cases hph
      | syncing =>
        obtain ⟨after, ha, -⟩ := endMirror_syncing hst hfits
        rw [hend] at ha
        cases ha

theorem Attended.step {next : Mirroring} (h : Attended state)
    (hunbroken : Unbroken ⟨state, event, next⟩) (hstep : MirrorStep state event next) :
    Attended next := by
  cases hstep with
  | approved pending ref code =>
    constructor
    all_goals
      intro version hf
      cases hf
      simp [pending]
  | @retried state version call found accepted fresh =>
    refine attended_of_settled ?_ (Or.inr (beq_iff_eq.mp accepted))
    exact found
  | refused found refused => exact h
  | begun found under_way => exact h.begun found
  | @ended state version call outcome found under_way =>
    apply h.ended found under_way
    intro hunfit
    simpa [Unbroken, MirrorEvent.stops, hunfit] using hunbroken
  | @crashed state call under_way => exact h.drop hunbroken

/-- In every run each change of the mirror status is one of the table, and a
synced version stays as it is.  In a run that stops no call the version needs,
the version is synced or retryable whenever no call is under way. -/
theorem mirror_recoverable {trace : List (Transition Mirroring MirrorEvent)} {final : Mirroring}
    (hrun : Run MirrorStep ⟨none, []⟩ trace final) :
    (∀ step ∈ trace, ∀ version, step.before.version = some version →
      ∃ after, step.after.version = some after ∧
        (version.mirrorStatus = after.mirrorStatus ∨
          (version.mirrorStatus, after.mirrorStatus) ∈ mirrorTransitions) ∧
        (version.mirrorStatus = .synced → after = version)) ∧
    ((∀ step ∈ trace, Unbroken step) → final.calls = [] →
      ∀ version, final.version = some version →
        version.mirrorStatus = .synced ∨ retryable version = true) := by
  constructor
  · refine hrun.forall_transition (I := fun _ => True) trivial (fun _ _ _ _ _ => trivial) ?_
    intro state event next _ hstep version hfound
    obtain ⟨after, hafter, hkept⟩ := hstep.kept hfound
    exact ⟨after, hafter, hkept.allowed, hkept.synced⟩
  · have hattended : (∀ step ∈ trace, Unbroken step) → Attended final := by
      refine hrun.invariant
        (I := fun trace state => (∀ step ∈ trace, Unbroken step) → Attended state) ?_ ?_
      · intro _
        constructor <;> exact fun version hfound => by cases hfound
      · intro trace state event next ih hstep hall
        rw [List.forall_mem_append, List.forall_mem_singleton] at hall
        exact (ih hall.1).step hall.2 hstep
    intro hall hquiet version hfound
    have hattended := hattended hall
    cases hstatus : version.mirrorStatus with
    | synced => exact Or.inl rfl
    | failed => exact Or.inr (beq_iff_eq.mpr hstatus)
    | notRequired => exact absurd hstatus (hattended.required version hfound)
    | pending => exact absurd hquiet (hattended.pending version hfound hstatus).1
    | syncing =>
      obtain ⟨call, hmem, -⟩ := hattended.syncing version hfound hstatus
      rw [hquiet] at hmem
      cases hmem

/-! ## A retry, and a call that stopped -/

def approvedVersion : RoadmapVersion where
  id := 1
  ownerId := 1
  sourceId := 1
  versionKey := "v1"
  versionNumber := 1
  monthNumber := 1
  predecessorId := none
  contentHash := "0"
  objectKey := "roadmaps/v1.zip"
  scheme := none
  createdAt := 0
  approvedAt := some 0
  activatedAt := none
  supersededAt := none
  startsOn := none
  mirrorStatus := .pending
  mirrorRef := none
  mirrorErrorCode := none
  state := .approved

def approvedState : Mirroring := ⟨some approvedVersion, [⟨0, .beginning⟩]⟩

def syncingState (call : Nat) : Mirroring :=
  ⟨some { approvedVersion with mirrorStatus := .syncing }, [⟨call, .mirroring⟩]⟩

def failedState (calls : List MirrorCall) : Mirroring :=
  ⟨some { approvedVersion with
    mirrorStatus := .failed, mirrorErrorCode := some .internalError }, calls⟩

def syncedState : Mirroring :=
  ⟨some { approvedVersion with mirrorStatus := .synced, mirrorRef := some "4f2a" }, []⟩

def versionOf (state : Mirroring) : RoadmapVersion :=
  state.version.getD approvedVersion

theorem run_approved :
    Run MirrorStep ⟨none, []⟩ [⟨⟨none, []⟩, .approved 0, approvedState⟩,
      ⟨approvedState, .begun 0, syncingState 0⟩] (syncingState 0) :=
  (Run.single (MirrorStep.approved rfl rfl rfl)).snoc
    (@MirrorStep.begun approvedState approvedVersion 0 rfl (List.mem_singleton.mpr rfl))

/-- The mirror fails, and the retry syncs the version. -/
theorem mirror_recoverable_retry :
    ∃ trace, Run MirrorStep ⟨none, []⟩ trace syncedState ∧
      (∀ step ∈ trace, Unbroken step) ∧ syncedState.calls = [] ∧
      ∀ version, syncedState.version = some version →
        version.mirrorStatus = .synced ∨ retryable version = true := by
  have hfailed : MirrorStep (syncingState 0) (.ended 0 (.failed .internalError))
      (failedState []) :=
    @MirrorStep.ended (syncingState 0) (versionOf (syncingState 0)) 0 _ rfl (List.mem_singleton.mpr rfl)
  have hretried : MirrorStep (failedState []) (.retried 1) (failedState [⟨1, .beginning⟩]) :=
    @MirrorStep.retried (failedState []) (versionOf (failedState [])) 1 rfl rfl (List.forall_mem_nil _)
  have hbegun : MirrorStep (failedState [⟨1, .beginning⟩]) (.begun 1) (syncingState 1) :=
    @MirrorStep.begun (failedState [⟨1, .beginning⟩]) (versionOf (failedState [])) 1 rfl
      (List.mem_singleton.mpr rfl)
  have hsynced : MirrorStep (syncingState 1) (.ended 1 (.mirrored "4f2a")) syncedState :=
    @MirrorStep.ended (syncingState 1) (versionOf (syncingState 1)) 1 _ rfl (List.mem_singleton.mpr rfl)
  have hrun := (((run_approved.snoc hfailed).snoc hretried).snoc hbegun).snoc hsynced
  have hunbroken : ∀ step ∈ [⟨⟨none, []⟩, .approved 0, approvedState⟩,
      ⟨approvedState, .begun 0, syncingState 0⟩] ++
      [⟨syncingState 0, .ended 0 (.failed .internalError), failedState []⟩] ++
      [⟨failedState [], .retried 1, failedState [⟨1, .beginning⟩]⟩] ++
      [⟨failedState [⟨1, .beginning⟩], .begun 1, syncingState 1⟩] ++
      [⟨syncingState 1, .ended 1 (.mirrored "4f2a"), syncedState⟩], Unbroken step := by
    decide
  exact ⟨_, hrun, hunbroken, rfl, (mirror_recoverable hrun).2 hunbroken rfl⟩

/-- A call that stops while the mirror works leaves a version that is neither
synced nor retryable. -/
theorem mirror_stuck_after_crash :
    ¬ ∀ (trace : List (Transition Mirroring MirrorEvent)) (final : Mirroring),
      Run MirrorStep ⟨none, []⟩ trace final → final.calls = [] →
      ∀ version, final.version = some version →
        version.mirrorStatus = .synced ∨ retryable version = true := by
  intro hclaim
  have hcrashed : MirrorStep (syncingState 0) (.crashed 0) ((syncingState 0).drop 0) :=
    @MirrorStep.crashed _ ⟨0, .mirroring⟩ (List.mem_singleton.mpr rfl)
  have hstuck := hclaim _ _ (run_approved.snoc hcrashed) rfl _ rfl
  revert hstuck
  decide

end TamForge.Roadmaps
