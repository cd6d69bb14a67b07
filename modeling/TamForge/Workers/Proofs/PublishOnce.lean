import TamForge.Workers.Claude

/-!
# Publishing at most once

A call reads the ledger before it takes the lease, so another call may publish
the same run in between.  When that never happens, the lease does the rest: of
all calls that hold it or have yet to publish under it there is one at most.
-/

namespace TamForge.Workers

open Agents ProofSupport

variable {Payload : Type} {validate : Payload → List String} {calls : Nat → Handle}
  {s t : Pool Payload} {a : Action Payload} {key : String}
  {trace : List (Transition (Pool Payload) (Action Payload))}

/-! ## What one action does -/

/-- The call has the lease. -/
def Phase.holds : Phase Payload → Bool
  | .holding _ | .invoked _ | .publishing _ | .releasing _ => true
  | .ready | .acquiring | .finished _ | .stopped => false

/-- The call has the lease and may still publish. -/
def Phase.pending : Phase Payload → Bool
  | .holding _ | .invoked _ | .publishing _ => true
  | .ready | .acquiring | .releasing _ | .finished _ | .stopped => false

theorem Phase.holds_of_pending {phase : Phase Payload} (h : phase.pending = true) :
    phase.holds = true := by
  cases phase <;> first | rfl | cases h

/-- What the action `a` of call `i` does to the pool. -/
inductive Move (calls : Nat → Handle) (i : Nat) (s : Pool Payload) (a : Action Payload) :
    Pool Payload → Prop
  | quiet {phase : Phase Payload} :
      (phase.holds = true → (s.phase i).holds = true) →
      (phase.pending = true → (s.phase i).pending = true) →
      (∀ result, phase = .publishing result → result.runKey = (calls i).prepared.runKey) →
      Move calls i s a (s.setPhase i phase)
  | acquired :
      a = .acquire i → s.held = none →
      Move calls i s a
        { s.setPhase i (.holding 0) with held := some (calls i).prepared.runKey }
  | published {result : ValidatedAgentResult Payload} {ending : Ending Payload} :
      s.phase i = .publishing result →
      Move calls i s a
        { s.setPhase i (.releasing ending) with ledger := s.ledger ++ [result] }
  | released {ending : Ending Payload} :
      s.phase i = .releasing ending →
      Move calls i s a { s.setPhase i (.finished ending) with held := none }

theorem Move.leave {i : Nat} {phase : Phase Payload} (h : phase.holds = false) :
    Move calls i s a (s.setPhase i phase) := by
  have hpend : phase.pending = false := by
    cases hp : phase.pending with
    | false => rfl
    | true =>
      rw [Phase.holds_of_pending hp] at h
      cases h
  refine .quiet (by simp [h]) (by simp [hpend]) ?_
  rintro res rfl
  cases h

@[simp] theorem setPhase_phase_self (i : Nat) (phase : Phase Payload) :
    (s.setPhase i phase).phase i = phase := by
  simp [Pool.setPhase]

theorem setPhase_phase_ne {i j : Nat} (phase : Phase Payload) (hne : j ≠ i) :
    (s.setPhase i phase).phase j = s.phase j := by
  simp [Pool.setPhase, hne]

theorem afterRun_publishing {bound att : Nat} {answer : Except RunError
    (ValidatedAgentResult Payload)} {result : ValidatedAgentResult Payload}
    (h : afterRun bound att answer = .publishing result) : answer = .ok result := by
  unfold afterRun at h
  split at h
  · cases h
    rfl
  · split_ifs at h
  · split at h <;> cases h

theorem act_move (h : act validate calls s a = some t) : ∃ i, Move calls i s a t := by
  cases a with
  | read i =>
    refine ⟨i, ?_⟩
    simp only [act] at h
    split at h
    · split_ifs at h
      · split at h <;> cases h <;> exact .leave rfl
      · cases h
        exact .leave rfl
    · cases h
  | acquire i =>
    refine ⟨i, ?_⟩
    simp only [act] at h
    split at h
    · split at h
      · cases h
        exact .leave rfl
      · rename_i hfree
        cases h
        exact .acquired rfl hfree
    · cases h
  | invoke i =>
    refine ⟨i, ?_⟩
    simp only [act] at h
    split at h
    · rename_i attempt hph
      cases h
      exact .quiet (fun _ => by rw [hph]; rfl) (fun _ => by rw [hph]; rfl) nofun
    · cases h
  | reply i transport timedOut =>
    refine ⟨i, ?_⟩
    simp only [act] at h
    split at h
    · rename_i attempt hph
      cases h
      refine .quiet (fun _ => by rw [hph]; rfl) (fun _ => by rw [hph]; rfl) ?_
      intro res hpublishing
      exact run_runKey (afterRun_publishing hpublishing)
    · cases h
  | publish i reply =>
    refine ⟨i, ?_⟩
    simp only [act] at h
    split at h
    · rename_i res hph
      cases reply with
      | stored =>
        cases h
        exact .published hph
      | refused =>
        cases h
        exact .quiet (fun _ => by rw [hph]; rfl) nofun nofun
      | storedThenFailed =>
        cases h
        exact .published hph
    · cases h
  | release i =>
    refine ⟨i, ?_⟩
    simp only [act] at h
    split at h
    · rename_i ending hph
      cases h
      exact .released hph
    · cases h
  | stop i =>
    cases h
    exact ⟨i, .leave rfl⟩

def publishedUnder (key : String) (s : Pool Payload) : List (ValidatedAgentResult Payload) :=
  s.ledger.filter fun result => result.runKey = key

/-- The lease has at most one holder, and while a call for `key` may still
publish, nothing is published under it. -/
structure PublishInv (calls : Nat → Handle) (key : String) (s : Pool Payload) : Prop where
  leased : ∀ i, (s.phase i).holds = true → s.held ≠ none
  alone : ∀ i j, (s.phase i).holds = true → (s.phase j).holds = true → i = j
  own : ∀ i result, s.phase i = .publishing result →
    result.runKey = (calls i).prepared.runKey
  pending : ∀ i, (s.phase i).pending = true → (calls i).prepared.runKey = key →
    publishedUnder key s = []
  once : (publishedUnder key s).length ≤ 1

theorem publishInv_initial : PublishInv calls key (Pool.initial : Pool Payload) where
  leased := nofun
  alone := nofun
  own := nofun
  pending := nofun
  once := Nat.zero_le _

theorem setPhase_cases {i j : Nat} {phase : Phase Payload} (P : Phase Payload → Prop)
    (h : P ((s.setPhase i phase).phase j)) : (j = i ∧ P phase) ∨ (j ≠ i ∧ P (s.phase j)) := by
  by_cases hj : j = i
  · subst hj
    rw [setPhase_phase_self] at h
    exact Or.inl ⟨rfl, h⟩
  · rw [setPhase_phase_ne phase hj] at h
    exact Or.inr ⟨hj, h⟩

/-- A move keeps the invariant, provided that a lease is not acquired for a key
under which something is published. -/
theorem Move.publishInv {i : Nat} (h : Move calls i s a t) (hinv : PublishInv calls key s)
    (hacquire : a = .acquire i → s.held = none → (calls i).prepared.runKey = key →
      publishedUnder key s = []) : PublishInv calls key t := by
  cases h with
  | @quiet phase hholds hpend hown =>
    have hheld : ∀ j, ((s.setPhase i phase).phase j).holds = true →
        (s.phase j).holds = true := by
      intro j hj
      rcases setPhase_cases (fun p => p.holds = true) hj with ⟨rfl, hself⟩ | ⟨-, ho⟩
      · exact hholds hself
      · exact ho
    refine ⟨fun j hj => hinv.leased j (hheld j hj),
      fun j k hj hk => hinv.alone j k (hheld j hj) (hheld k hk), ?_, ?_, hinv.once⟩
    · intro j res hj
      rcases setPhase_cases (fun p => p = .publishing res) hj with ⟨rfl, hself⟩ | ⟨-, ho⟩
      · exact hown res hself
      · exact hinv.own j res ho
    · intro j hj hkey
      rcases setPhase_cases (fun p => p.pending = true) hj with ⟨rfl, hself⟩ | ⟨-, ho⟩
      · exact hinv.pending j (hpend hself) hkey
      · exact hinv.pending j ho hkey
  | acquired hacquires hfree =>
    -- nobody else has the lease when it is free
    have hnone : ∀ j, (s.phase j).holds = true → False := fun j hj => hinv.leased j hj hfree
    refine ⟨by simp, ?_, ?_, ?_, hinv.once⟩
    · intro j k hj hk
      rcases setPhase_cases (fun p => p.holds = true) hj with ⟨rfl, -⟩ | ⟨-, ho⟩
      · rcases setPhase_cases (fun p => p.holds = true) hk with ⟨rfl, -⟩ | ⟨-, hthird⟩
        · rfl
        · exact (hnone k hthird).elim
      · exact (hnone j ho).elim
    · intro j res hj
      rcases setPhase_cases (fun p => p = .publishing res) hj with ⟨-, hself⟩ | ⟨-, ho⟩
      · cases hself
      · exact hinv.own j res ho
    · intro j hj hkey
      rcases setPhase_cases (fun p => p.pending = true) hj with ⟨rfl, -⟩ | ⟨-, ho⟩
      · exact hacquire hacquires hfree hkey
      · exact hinv.pending j ho hkey
  | @published res ending hph =>
    have hi : (s.phase i).holds = true := by rw [hph]; rfl
    have hheld : ∀ j, ((s.setPhase i (.releasing ending)).phase j).holds = true →
        (s.phase j).holds = true := by
      intro j hj
      rcases setPhase_cases (fun p => p.holds = true) hj with ⟨rfl, -⟩ | ⟨-, ho⟩
      · exact hi
      · exact ho
    refine ⟨fun j hj => hinv.leased j (hheld j hj),
      fun j k hj hk => hinv.alone j k (hheld j hj) (hheld k hk), ?_, ?_, ?_⟩
    · intro j other hj
      rcases setPhase_cases (fun p => p = .publishing other) hj with ⟨-, hself⟩ | ⟨-, ho⟩
      · cases hself
      · exact hinv.own j other ho
    · -- the call that publishes is the only one with the lease
      intro j hj _
      rcases setPhase_cases (fun p => p.pending = true) hj with ⟨-, hself⟩ | ⟨hne, ho⟩
      · cases hself
      · exact absurd (hinv.alone j i (Phase.holds_of_pending ho) hi) hne
    · unfold publishedUnder
      rw [List.filter_append]
      by_cases hkey : res.runKey = key
      · have hnil : publishedUnder key s = [] :=
          hinv.pending i (by rw [hph]; rfl) ((hinv.own i res hph).symm.trans hkey)
        unfold publishedUnder at hnil
        simp [hnil, hkey]
      · have honce := hinv.once
        unfold publishedUnder at honce
        simpa [hkey] using honce
  | @released ending hph =>
    have hi : (s.phase i).holds = true := by rw [hph]; rfl
    have hnone : ∀ j, ((s.setPhase i (.finished ending)).phase j).holds = true → False := by
      intro j hj
      rcases setPhase_cases (fun p => p.holds = true) hj with ⟨-, hself⟩ | ⟨hne, ho⟩
      · cases hself
      · exact hne (hinv.alone j i ho hi)
    refine ⟨fun j hj => (hnone j hj).elim, fun j _ hj => (hnone j hj).elim, ?_, ?_, hinv.once⟩
    · intro j res hj
      rcases setPhase_cases (fun p => p = .publishing res) hj with ⟨-, hself⟩ | ⟨-, ho⟩
      · cases hself
      · exact hinv.own j res ho
    · intro j hj _
      exact (hnone j (Phase.holds_of_pending hj)).elim

/-- If the transition takes the lease for `key`, nothing is published under it. -/
def AcquiredUnpublished (calls : Nat → Handle) (key : String)
    (e : Transition (Pool Payload) (Action Payload)) : Prop :=
  match e.label with
  | .acquire i => e.before.held = none → (calls i).prepared.runKey = key →
      publishedUnder key e.before = []
  | _ => True

/-- In every run in which no call takes the lease for `key` after something was
published under it, at most one result is published under `key`, and the
runtime is never invoked for it once its result is published. -/
theorem publish_once (hrun : PoolRun validate calls trace s)
    (hacquired : ∀ e ∈ trace, AcquiredUnpublished calls key e) :
    (publishedUnder key s).length ≤ 1 ∧
      ∀ e ∈ trace, ∀ i, e.label = .invoke i → (calls i).prepared.runKey = key →
        publishedUnder key e.before = [] := by
  have hall : (∀ e ∈ trace, AcquiredUnpublished calls key e) → PublishInv calls key s ∧
      ∀ e ∈ trace, ∀ i, e.label = .invoke i → (calls i).prepared.runKey = key →
        publishedUnder key e.before = [] := by
    refine hrun.invariant (I := fun trace s =>
      (∀ e ∈ trace, AcquiredUnpublished calls key e) → PublishInv calls key s ∧
        ∀ e ∈ trace, ∀ i, e.label = .invoke i → (calls i).prepared.runKey = key →
          publishedUnder key e.before = []) ?_ ?_
    · intro _
      exact ⟨publishInv_initial, by simp⟩
    · intro trace s a t ih hact hacquired
      obtain ⟨hinv, hinvoked⟩ := ih fun e he => hacquired e (List.mem_append_left _ he)
      have hlast : AcquiredUnpublished calls key ⟨s, a, t⟩ := hacquired _ (by simp)
      obtain ⟨i, hmove⟩ := act_move hact
      refine ⟨hmove.publishInv hinv ?_, ?_⟩
      · rintro rfl
        exact hlast
      intro e he j hinvoke hkey
      rcases List.mem_append.mp he with he | he
      · exact hinvoked e he j hinvoke hkey
      · rw [List.mem_singleton.mp he] at hinvoke ⊢
        dsimp only at hinvoke
        subst hinvoke
        simp only [act] at hact
        split at hact
        · rename_i attempt hphase
          exact hinv.pending j (by rw [hphase]; rfl) hkey
        · cases hact
  obtain ⟨hinv, hinvoked⟩ := hall hacquired
  exact ⟨hinv.once, hinvoked⟩

def sampleCalls (_ : Nat) : Handle where
  prepared := {
    runKey := "run-1"
    jobType := "claude.review"
    model := "claude-sonnet-5"
    schemaId := "urn:tamforge:schema:english-analysis-v1"
    promptVersion := "v1"
    maxTurns := 4 }

def undisturbed (i : Nat) : List (Action Unit) :=
  [.acquire i, .invoke i, .reply i (fun _ => .ok ⟨(), 2⟩) false, .publish i .stored, .release i]

def samplePool (actions : List (Action Unit)) :
    List (Transition (Pool Unit) (Action Unit)) × Pool Unit :=
  actAll (fun _ => []) sampleCalls Pool.initial actions

/-- A delivery of the run after it finished is replayed. -/
theorem publish_once_replayed :
    let run := samplePool (.read 0 :: undisturbed 0 ++ [.read 1])
    run.1.length = 7 ∧ (publishedUnder "run-1" run.2).length ≤ 1 := by
  intro run
  have hrun : PoolRun (fun _ => []) sampleCalls run.1 run.2 := run_actAll _ _ _ _
  have hacquired : ∀ e ∈ run.1, AcquiredUnpublished sampleCalls "run-1" e := by
    intro e he
    have htrace : run.1 = [run.1[0], run.1[1], run.1[2], run.1[3], run.1[4], run.1[5],
      run.1[6]] := rfl
    rw [htrace] at he
    simp only [List.mem_cons, List.not_mem_nil, or_false] at he
    rcases he with rfl | rfl | rfl | rfl | rfl | rfl | rfl
    all_goals first | exact trivial | exact fun _ _ => rfl
  exact ⟨rfl, (publish_once hrun hacquired).1⟩

/-- Both calls read the ledger before either takes the lease: the second one
invokes the runtime for a run that is published, and publishes it again. -/
theorem published_twice :
    let run := samplePool (.read 0 :: .read 1 :: undisturbed 0 ++ undisturbed 1)
    PoolRun (fun _ => []) sampleCalls run.1 run.2 ∧
      (publishedUnder "run-1" run.2).length = 2 ∧
      ∃ e ∈ run.1, e.label = .invoke 1 ∧ publishedUnder "run-1" e.before ≠ [] := by
  intro run
  refine ⟨run_actAll _ _ _ _, by decide, run.1[8], List.getElem_mem _, rfl, by decide⟩

end TamForge.Workers
