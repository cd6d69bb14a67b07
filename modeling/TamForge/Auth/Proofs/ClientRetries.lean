import TamForge.Auth.Proofs.ClientTokens

/-!
# One retry

A refused operation is tried once more with a token of the current refresh.
While the server answers and nobody logs out, that token is the latest of its
session when the rotation ends; it is refused only when the server rotates the
session again before it has read the second operation.
-/

namespace TamForge.Auth.Client

open ProofSupport

variable {s t : State} {i j : Nat} {event : Event} {task : RefreshTask} {token : Token}
  {phase : CallPhase}

/-! ## Invariants -/

def LoginPhase.GivesUp (token : Token) : LoginPhase → Prop
  | .revoking given _ | .revoked given _ | .discarding given => given = token
  | .browsing | .exchanging | .exchanged _ => False

def GivenUp (s : State) (token : Token) : Prop :=
  s.pendingRevocationToken = some token ∨
    (∃ i, s.calls i = some (.revoking token) ∨ s.calls i = some (.revoked token)) ∨
    (∃ login, s.login = some login ∧ login.phase.GivesUp token) ∨
    ∃ j task, s.tasks j = some task ∧ task.phase = .revoking token

def Replied (s : State) (token : Token) : Prop :=
  ∃ j task pair, s.tasks j = some task ∧ task.refreshToken = token ∧
    task.phase = .answered (some pair)

structure Live (s : State) (token : Token) : Prop where
  session : (s.server token.session = some ⟨token.number, false⟩ ∧ ¬Replied s token) ∨
    (s.server token.session = some ⟨token.number + 1, false⟩ ∧ Replied s token)
  denied : ∀ j task, s.tasks j = some task → task.refreshToken = token →
    task.phase ≠ .answered none
  opened : ∀ j task, s.tasks j = some task → task.refreshToken.session = token.session →
    task.phase.isOpen = true → task.refreshToken = token
  given : ∀ other, GivenUp s other → other.session ≠ token.session

def Usable (s : State) (token : Token) : Prop :=
  s.server.refusal token = none ∧
    ∃ active, s.activeRefreshToken = some active ∧ token.session = active.session

def CallPhase.Fine (s : State) : CallPhase → Prop
  | .awaiting j _ (.operation _) => ∃ task, s.tasks j = some task ∧
      ((task.phase.isOpen = true ∧ task.generation = s.sessionGeneration) ∨
        ∃ token, task.phase = .finished (some token))
  | .operated _ (some _) answer => answer = none
  | .ended (some _) outcome => outcome = .returned
  | _ => True

/-- The stored session is live, and every call that needs it can go on. -/
structure Steady (s : State) : Prop where
  active : ∀ token, s.activeRefreshToken = some token →
    s.pendingRevocationToken = some token ∨ (s.pendingRevocationToken = none ∧ Live s token)
  exchanged : ∀ generation pair, s.login = some ⟨generation, .exchanged pair⟩ →
    Live s pair.refreshToken
  known : ∀ token, GivenUp s token → s.server token.session ≠ none
  held : s.accessToken ≠ none ∨ s.refreshTask ≠ none ∨ Performing s →
    s.activeRefreshToken ≠ none ∧ s.pendingRevocationToken = none
  current : ∀ j task, s.tasks j = some task → task.phase.isOpen = true →
    task.generation = s.sessionGeneration →
    s.refreshTask = some j ∧ s.activeRefreshToken = some task.refreshToken
  refreshed : ∀ j task, s.refreshTask = some j → s.tasks j = some task →
    task.phase.isOpen = true ∨ task.phase = .finished s.activeRefreshToken
  fine : ∀ i phase, s.calls i = some phase → phase.Fine s
  usable : ∀ i phase token, s.calls i = some phase → phase.Retries s token → Usable s token

theorem steady_initial (h : Initial s) (hkept : Kept s) : Steady s := by
  obtain ⟨hacc, hrefr, hlogin, hleases, htasks, hcalls, hiss⟩ := h
  have hgiven : ∀ token, GivenUp s token → s.pendingRevocationToken = some token := by
    intro token hgiven
    simpa [GivenUp, hcalls, hlogin, htasks] using hgiven
  constructor
  case active =>
    intro token hact
    rcases hkept.stored with hnone | hnone | hsame
    · rw [hnone] at hact
      cases hact
    · refine Or.inr ⟨hnone, ?_⟩
      constructor
      · exact Or.inl ⟨hkept.live token hact hnone, by simp [Replied, htasks]⟩
      · simp [htasks]
      · simp [htasks]
      · intro other ho
        have hpend := hgiven other ho
        rw [hnone] at hpend
        cases hpend
    · exact Or.inl (hsame ▸ hact)
  case known =>
    intro token htok
    obtain ⟨sess, hsess, -⟩ := hiss token (Or.inr (hgiven token htok))
    simp [hsess]
  all_goals simp [hacc, hrefr, hlogin, htasks, hcalls, Performing]

theorem Live.mono (h : Live s token)
    (hsrv : t.server token.session = s.server token.session)
    (htasks : ∀ j task, t.tasks j = some task → task.refreshToken.session = token.session →
      task.phase.isOpen = true → task.refreshToken = token ∧
        ∀ reply, task.phase = .answered reply → s.tasks j = some task)
    (hreplied : Replied s token → Replied t token)
    (hgiven : ∀ other, GivenUp t other → GivenUp s other ∨ other.session ≠ token.session) :
    Live t token := by
  have hback : Replied t token → Replied s token := by
    rintro ⟨j, task, pair, htask, rfl, hph⟩
    obtain ⟨-, hans⟩ := htasks j task htask rfl (by rw [hph]; rfl)
    exact ⟨j, task, pair, hans _ hph, rfl, hph⟩
  constructor
  · rw [hsrv]
    rcases h.session with ⟨hsess, hnone⟩ | ⟨hsess, hsome⟩
    · exact Or.inl ⟨hsess, fun hreplied => hnone (hback hreplied)⟩
    · exact Or.inr ⟨hsess, hreplied hsome⟩
  · rintro j task htask rfl hph
    obtain ⟨-, hans⟩ := htasks j task htask rfl (by rw [hph]; rfl)
    exact h.denied j task (hans _ hph) rfl hph
  · exact fun j task htask hsess hopen => (htasks j task htask hsess hopen).1
  · intro other ho
    exact (hgiven other ho).elim (h.given other) id

theorem Live.same (h : Live s token) (htasks : t.tasks = s.tasks)
    (hsrv : t.server token.session = s.server token.session)
    (hgiven : ∀ other, GivenUp t other → GivenUp s other ∨ other.session ≠ token.session) :
    Live t token := by
  refine h.mono hsrv ?_ ?_ hgiven
  · intro j task htask hsess hopen
    rw [htasks] at htask
    exact ⟨h.opened j task htask hsess hopen, fun _ _ => htask⟩
  · rintro ⟨j, task, pair, htask, hrest⟩
    exact ⟨j, task, pair, by rw [htasks]; exact htask, hrest⟩

variable {server : Server} {name : Nat}

theorem revoke_of_ne {token : Token} (h : name ≠ token.session) :
    server.revoke token name = server name := by
  unfold Server.revoke
  cases server token.session with
  | none => rfl
  | some session => exact Function.update_of_ne h ..

theorem rotate_of_ne {token : Token} (h : name ≠ token.session) :
    (server.rotate token).2 name = server name := by
  unfold Server.rotate
  split
  · rfl
  · split
    · exact revoke_of_ne h
    · split
      · rfl
      · exact Function.update_of_ne h ..

theorem rotate_live (h : server token.session = some ⟨token.number, false⟩) :
    server.rotate token = (some ⟨token.next, token.next⟩,
      Function.update server token.session (some ⟨token.number + 1, false⟩)) := by
  simp [Server.rotate, h]

theorem performing_of_retries (h : phase.Retries s token) : phase.performing = true := by
  cases phase with
  | awaiting j creator purpose =>
    cases purpose with
    | operation refused => rfl
    | token | lease => exact h.elim
  | operating held refused => rfl
  | operated | revoking | revoked | ended => exact h.elim

theorem refusal_congr {after : Server} (h : after token.session = server token.session) :
    after.refusal token = server.refusal token := by
  unfold Server.refusal
  rw [h]

theorem retries_of_other {s t : State} (htasks : ∀ j task, t.tasks j = some task →
    task.phase = .finished (some token) → s.tasks j = some task)
    (h : phase.Retries t token) : phase.Retries s token := by
  cases phase with
  | awaiting j creator purpose =>
    cases purpose with
    | operation refused =>
      cases refused with
      | none => exact h
      | some refusal =>
        obtain ⟨task, htask, hph⟩ := h
        exact ⟨task, htasks j task htask hph, hph⟩
    | token | lease => exact h
  | operating held refused =>
    cases refused with
    | none => exact h
    | some refusal => exact h
  | operated | revoking | revoked | ended => exact h

theorem retries_congr (htasks : t.tasks = s.tasks) (h : phase.Retries t token) :
    phase.Retries s token := by
  refine retries_of_other ?_ h
  intro j task htask _
  rw [← htasks]
  exact htask

variable {purpose : Purpose} {creator : Option Nat} {generation : Nat}

theorem retries_awaiting (h : (CallPhase.awaiting j creator purpose).Retries s token) :
    ∃ task, s.tasks j = some task ∧ task.phase = .finished (some token) := by
  cases purpose with
  | token | lease => exact h.elim
  | operation refused =>
    cases refused with
    | none => exact h.elim
    | some refusal => exact h

/-- A call that waits for the task is given a token by it. -/
def RefreshTask.Serves (generation : Nat) (task : RefreshTask) : Prop :=
  (task.phase.isOpen = true ∧ task.generation = generation) ∨
    ∃ token, task.phase = .finished (some token)

theorem generation_of_serves (h : task.Serves generation) (hopen : task.phase.isOpen = true) :
    task.generation = generation := by
  rcases h with ⟨-, hgen⟩ | ⟨token, hfin⟩
  · exact hgen
  · rw [hfin] at hopen
    cases hopen

theorem fine_awaiting (htask : s.tasks j = some task) (h : task.Serves s.sessionGeneration) :
    (CallPhase.awaiting j creator purpose).Fine s := by
  cases purpose with
  | token | lease => trivial
  | operation refused => exact ⟨task, htask, h⟩

theorem fine_of_tasks {s t : State} (htasks : ∀ j task, s.tasks j = some task →
      task.Serves s.sessionGeneration →
      ∃ later, t.tasks j = some later ∧ later.Serves t.sessionGeneration)
    (h : phase.Fine s) : phase.Fine t := by
  cases phase with
  | awaiting j creator purpose =>
    cases purpose with
    | operation refused =>
      obtain ⟨task, htask, hserves⟩ := h
      exact htasks j task htask hserves
    | token | lease => trivial
  | operated held refused answer =>
    cases refused with
    | none => trivial
    | some refusal => exact h
  | ended refused outcome =>
    cases refused with
    | none => trivial
    | some refusal => exact h
  | operating | revoking | revoked => trivial

theorem fine_congr (htasks : t.tasks = s.tasks)
    (hgen : t.sessionGeneration = s.sessionGeneration) (h : phase.Fine s) :
    phase.Fine t := by
  refine fine_of_tasks ?_ h
  intro j task htask hserves
  rw [htasks, hgen]
  exact ⟨task, htask, hserves⟩

/-! ## Writing a task -/

/-- The task `j` is written, and the server changes no session but the task's. -/
structure Writes (s : State) (j : Nat) (task : RefreshTask) (t : State) : Prop where
  tasks : t.tasks = (s.setTask j task).tasks
  calls : t.calls = s.calls
  login : t.login = s.login
  pending : t.pendingRevocationToken = s.pendingRevocationToken
  generation : t.sessionGeneration = s.sessionGeneration
  server : ∀ name, name ≠ task.refreshToken.session → t.server name = s.server name

namespace Writes

variable {k : Nat} {other : RefreshTask}

theorem self (h : Writes s j task t) : t.tasks j = some task := by
  rw [h.tasks]
  exact State.setTask_self ..

theorem kept (h : Writes s j task t) (hk : k ≠ j) (ho : s.tasks k = some other) :
    t.tasks k = some other := by
  rw [h.tasks]
  exact (State.setTask_ne _ _ hk).trans ho

theorem task_cases (h : Writes s j task t) (ho : t.tasks k = some other) :
    (k = j ∧ other = task) ∨ (k ≠ j ∧ s.tasks k = some other) := by
  rw [h.tasks] at ho
  exact setTask_cases ho

theorem givenUp (h : Writes s j task t) (hgiven : GivenUp t token) :
    GivenUp s token ∨ task.phase = .revoking token := by
  rcases hgiven with hpend | hcall | hlogin | ⟨k, other, ho, hph⟩
  · exact Or.inl (Or.inl (h.pending ▸ hpend))
  · exact Or.inl (Or.inr (Or.inl (h.calls ▸ hcall)))
  · exact Or.inl (Or.inr (Or.inr (Or.inl (h.login ▸ hlogin))))
  · rcases h.task_cases ho with ⟨-, rfl⟩ | ⟨-, ho⟩
    · exact Or.inr hph
    · exact Or.inl (Or.inr (Or.inr (Or.inr ⟨k, other, ho, hph⟩)))

theorem live (h : Writes s j task t) (hlive : Live s token)
    (hsrv : t.server token.session = s.server token.session)
    (hopened : task.refreshToken.session = token.session → task.phase.isOpen = true →
      task.refreshToken = token ∧ ∀ reply, task.phase ≠ .answered reply)
    (hb : ∀ before pair, s.tasks j = some before → before.refreshToken = token →
      before.phase ≠ .answered (some pair))
    (hgiven : ∀ revoked, task.phase = .revoking revoked → revoked.session ≠ token.session) :
    Live t token := by
  refine hlive.mono hsrv ?_ ?_ fun other ho => (h.givenUp ho).imp id (hgiven other)
  · intro k other ho hsess hopen
    rcases h.task_cases ho with ⟨-, rfl⟩ | ⟨-, ho⟩
    · obtain ⟨hsame, hunanswered⟩ := hopened hsess hopen
      exact ⟨hsame, fun reply hrep => absurd hrep (hunanswered reply)⟩
    · exact ⟨hlive.opened k other ho hsess hopen, fun _ _ => ho⟩
  · rintro ⟨k, other, pair, ho, hsame, hans⟩
    have hk : k ≠ j := by
      rintro rfl
      exact hb other pair ho hsame hans
    exact ⟨k, other, pair, h.kept hk ho, hsame, hans⟩

theorem live_apart (h : Writes s j task t) (hlive : Live s token)
    (hb : ∀ before, s.tasks j = some before → before.refreshToken = task.refreshToken)
    (hsess : task.refreshToken.session ≠ token.session)
    (hgiven : ∀ revoked, task.phase = .revoking revoked → revoked.session ≠ token.session) :
    Live t token := by
  refine h.live hlive (h.server _ hsess.symm) (fun hsame => absurd hsame hsess) ?_ hgiven
  rintro before pair hf rfl -
  exact hsess (congrArg Token.session (hb before hf).symm)

theorem fine (h : Writes s j task t)
    (hserves : ∀ before, s.tasks j = some before → before.Serves s.sessionGeneration →
      task.Serves s.sessionGeneration)
    (hfine : phase.Fine s) : phase.Fine t := by
  refine fine_of_tasks ?_ hfine
  intro k other ho hold
  rw [h.generation]
  by_cases hk : k = j
  · subst hk
    exact ⟨task, h.self, hserves other ho hold⟩
  · exact ⟨other, h.kept hk ho, hold⟩

theorem retries (h : Writes s j task t) (hph : task.phase ≠ .finished (some token))
    (hretry : phase.Retries t token) : phase.Retries s token := by
  refine retries_of_other ?_ hretry
  intro k other ho hfin
  rcases h.task_cases ho with ⟨-, rfl⟩ | ⟨-, ho⟩
  · exact absurd hfin hph
  · exact ho

end Writes

namespace Steady

theorem live (h : Steady s) (hact : s.activeRefreshToken = some token)
    (hpend : s.pendingRevocationToken = none) : Live s token := by
  rcases h.active token hact with hsame | ⟨-, hlive⟩
  · rw [hpend] at hsame
    cases hsame
  · exact hlive

theorem performs (h : Steady s) (hcall : s.calls i = some phase)
    (hph : phase.performing = true) :
    s.activeRefreshToken ≠ none ∧ s.pendingRevocationToken = none :=
  h.held (Or.inr (Or.inr ⟨i, phase, hcall, hph⟩))

theorem givenUp_setCall (h : GivenUp (s.setCall i phase) token) :
    GivenUp s token ∨ phase = .revoking token ∨ phase = .revoked token := by
  rcases h with hpend | ⟨k, hcall⟩ | hlogin | htask
  · exact Or.inl (Or.inl hpend)
  · by_cases hk : k = i
    · subst hk
      rw [State.setCall_self] at hcall
      exact Or.inr (hcall.imp Option.some.inj Option.some.inj)
    · rw [State.setCall_ne _ _ hk] at hcall
      exact Or.inl (Or.inr (Or.inl ⟨k, hcall⟩))
  · exact Or.inl (Or.inr (Or.inr (Or.inl hlogin)))
  · exact Or.inl (Or.inr (Or.inr (Or.inr htask)))

theorem performing_setCall (h : Performing (s.setCall i phase)) :
    Performing s ∨ phase.performing = true := by
  obtain ⟨k, other, hcall, ho⟩ := h
  rcases setCall_cases hcall with ⟨-, rfl⟩ | ⟨-, hcall⟩
  · exact Or.inr ho
  · exact Or.inl ⟨k, other, hcall, ho⟩

theorem setCall (h : Steady s) (i : Nat) (hfine : phase.Fine s)
    (husable : ∀ token, phase.Retries s token → Usable s token)
    (hperforming : phase.performing = true →
      s.activeRefreshToken ≠ none ∧ s.pendingRevocationToken = none)
    (hgiven : ∀ token, phase = .revoking token ∨ phase = .revoked token → GivenUp s token) :
    Steady (s.setCall i phase) := by
  have hkept : ∀ {token}, GivenUp (s.setCall i phase) token → GivenUp s token := fun ho =>
    (givenUp_setCall ho).elim id (hgiven _)
  have hlive : ∀ {token}, Live s token → Live (s.setCall i phase) token := fun hlive =>
    hlive.same rfl rfl fun _ ho => Or.inl (hkept ho)
  have hcalls : ∀ {k other}, (s.setCall i phase).calls k = some other →
      other = phase ∨ s.calls k = some other := by
    intro k other ho
    exact (setCall_cases ho).imp And.right And.right
  constructor
  case active => exact fun token hact => (h.active token hact).imp id (And.imp id hlive)
  case exchanged => exact fun generation pair hlogin => hlive (h.exchanged generation pair hlogin)
  case known => exact fun token ho => h.known token (hkept ho)
  case held =>
    rintro (hacc | hrefr | hperform)
    · exact h.held (Or.inl hacc)
    · exact h.held (Or.inr (Or.inl hrefr))
    · rcases performing_setCall hperform with hperform | hph
      · exact h.held (Or.inr (Or.inr hperform))
      · exact hperforming hph
  case current => exact h.current
  case refreshed => exact h.refreshed
  case fine =>
    intro k other ho
    rcases hcalls ho with rfl | ho
    · exact hfine
    · exact h.fine k other ho
  case usable =>
    intro k other token ho hretry
    rcases hcalls ho with rfl | ho
    · exact husable token hretry
    · exact h.usable k other token ho hretry

/-! ## Calls -/

theorem finish (h : Steady s) (i : Nat) (out : Outcome) :
    Steady (s.setCall i (.ended none out)) :=
  h.setCall i trivial nofun nofun (by simp)

theorem fail (h : Steady s) (i : Nat) (hpurpose : ∀ refusal, purpose ≠ .operation (some refusal)) :
    Steady (s.fail i purpose) := by
  unfold State.fail
  cases purpose with
  | token | lease => exact h.finish i .failed
  | operation refused =>
    cases refused with
    | none => exact h.finish i .failed
    | some refusal => exact absurd rfl (hpurpose refusal)

/-- Only the cache, the current task and the leases change. -/
theorem keep {access : Option Token} {refresh : Option Nat} {leases : List Nat} (h : Steady s)
    (hheld : access ≠ none ∨ refresh ≠ none → s.accessToken ≠ none ∨ s.refreshTask ≠ none)
    (hcur : ∀ j task, s.tasks j = some task → task.phase.isOpen = true →
      s.refreshTask = some j → refresh = some j)
    (hrefreshed : ∀ j, refresh = some j → s.refreshTask = some j) :
    Steady { s with accessToken := access, refreshTask := refresh, leases := leases } := by
  have hlive : ∀ {token}, Live s token → Live
      { s with accessToken := access, refreshTask := refresh, leases := leases } token :=
    fun hlive => hlive.same rfl rfl fun _ ho => Or.inl ho
  exact { h with
    active := fun token hact => (h.active token hact).imp id (And.imp id hlive)
    exchanged := fun generation pair hlogin => hlive (h.exchanged generation pair hlogin)
    held := fun hneeded => h.held (or_assoc.mp ((or_assoc.mpr hneeded).imp hheld id))
    current := fun j task htask hopen hgen => by
      obtain ⟨hrefr, hact⟩ := h.current j task htask hopen hgen
      exact ⟨hcur j task htask hopen hrefr, hact⟩
    refreshed := fun j task hrefr htask => h.refreshed j task (hrefreshed j hrefr) htask
    fine := fun i phase hcall => fine_congr rfl rfl (h.fine i phase hcall)
    usable := fun i phase token hcall hretry =>
      h.usable i phase token hcall (retries_congr rfl hretry) }

theorem clearAccessToken (h : Steady s) : Steady s.clearAccessToken :=
  h.keep (fun hheld => Or.inr (hheld.resolve_left fun hne => hne rfl)) (fun _ _ _ _ => id)
    fun _ => id

theorem lease (h : Steady s) (generation : Nat) :
    Steady { s with leases := generation :: s.leases } :=
  h.keep id (fun _ _ _ _ => id) fun _ => id

theorem drop (h : Steady s) (hrefr : s.refreshTask = some j) (htask : s.tasks j = some task)
    (hclos : task.phase.isOpen = false) : Steady { s with refreshTask := none } := by
  refine h.keep (fun hheld => Or.inl (hheld.resolve_right fun hne => hne rfl)) ?_ nofun
  intro k other ho hopen hk
  obtain rfl := Option.some.inj (hrefr.symm.trans hk)
  obtain rfl := Option.some.inj (htask.symm.trans ho)
  rw [hclos] at hopen
  cases hopen

theorem deliver (h : Steady s) (i : Nat)
    (hheld : ∀ refused, purpose = .operation refused →
      s.activeRefreshToken ≠ none ∧ s.pendingRevocationToken = none)
    (hretry : ∀ refusal, purpose = .operation (some refusal) → Usable s token) :
    Steady (s.deliver i token purpose) := by
  cases purpose with
  | token => exact h.finish i .returned
  | lease generation =>
    simp only [State.deliver]
    split
    · exact (h.lease generation).finish i .returned
    · exact h.finish i .failed
  | operation refused =>
    refine h.setCall i trivial ?_ (fun _ => hheld refused rfl) (by simp)
    intro other hretries
    cases refused with
    | none => exact hretries.elim
    | some refusal =>
      obtain rfl : token = other := hretries
      exact hretry refusal rfl

/-- The current task is open, or it has got the stored credential. -/
theorem serves (h : Steady s) (hs : SingleFlight s) (hrefr : s.refreshTask = some j)
    (htask : s.tasks j = some task) : task.Serves s.sessionGeneration := by
  obtain ⟨tracked, htracked, hgen⟩ := hs.tracked j hrefr
  obtain rfl := Option.some.inj (htask.symm.trans htracked)
  rcases h.refreshed j task hrefr htask with hopen | hfin
  · exact Or.inl ⟨hopen, hgen⟩
  · obtain ⟨token, hact⟩ := Option.ne_none_iff_exists'.mp
      (h.held (Or.inr (Or.inl (by simp [hrefr])))).1
    exact Or.inr ⟨token, hfin.trans (congrArg _ hact)⟩

theorem usable_finished (h : Steady s) (hs : SingleFlight s) (hrefr : s.refreshTask = some j)
    (htask : s.tasks j = some task) (hph : task.phase = .finished (some token)) :
    Usable s token := by
  obtain ⟨hact, hpend⟩ := h.held (Or.inr (Or.inl (by simp [hrefr])))
  have hsame : s.activeRefreshToken = some token := by
    rcases h.refreshed j task hrefr htask with hopen | hfin
    · rw [hph] at hopen
      cases hopen
    · rw [hph] at hfin
      exact (TaskPhase.finished.inj hfin).symm
  have hlive := h.live hsame hpend
  have hunreplied : ¬Replied s token := by
    rintro ⟨k, other, pair, ho, rfl, hans⟩
    obtain ⟨hk, -⟩ := hs.stored k other ho hsame
    obtain rfl := Option.some.inj (hrefr.symm.trans hk)
    rw [htask] at ho
    cases ho
    rw [hph] at hans
    cases hans
  have hsrv := (hlive.session.resolve_right fun hreplied => hunreplied hreplied.2).1
  refine ⟨?_, token, hsame, rfl⟩
  simp [Server.refusal, hsrv]

theorem create (h : Steady s) (hs : SingleFlight s) (hnone : s.refreshTask = none)
    (hact : s.activeRefreshToken = some token) (hpend : s.pendingRevocationToken = none)
    (hnew : s.tasks j = none) :
    Steady ({ s with refreshTask := some j }.setTask j
      ⟨token, s.sessionGeneration, .created⟩) := by
  have hwr : Writes s j ⟨token, s.sessionGeneration, .created⟩
      ({ s with refreshTask := some j }.setTask j ⟨token, s.sessionGeneration, .created⟩) :=
    ⟨rfl, rfl, rfl, rfl, rfl, fun _ _ => rfl⟩
  have hb : ∀ before, s.tasks j ≠ some before := by simp [hnew]
  have hlive : ∀ {other}, Live s other → (token.session = other.session → token = other) →
      Live ({ s with refreshTask := some j }.setTask j
        ⟨token, s.sessionGeneration, .created⟩) other := fun ho hsame =>
    hwr.live ho rfl (fun hsess _ => ⟨hsame hsess, nofun⟩)
      (fun before _ hf => absurd hf (hb before)) nofun
  constructor
  case active =>
    intro other ho
    obtain rfl := Option.some.inj (hact.symm.trans ho)
    exact Or.inr ⟨hpend, hlive (h.live hact hpend) fun _ => rfl⟩
  case exchanged =>
    intro generation pair hlogin
    refine hlive (h.exchanged generation pair hlogin) ?_
    intro hsess
    exact absurd hsess ((hs.exchanged generation pair hlogin).2.2.2.1 token hact)
  case known => exact fun other ho => h.known other ((hwr.givenUp ho).elim id nofun)
  case held => exact fun _ => ⟨by simp [State.setTask, hact], hpend⟩
  case current =>
    intro k other ho hopen hgen
    rcases hwr.task_cases ho with ⟨rfl, rfl⟩ | ⟨-, ho⟩
    · exact ⟨rfl, hact⟩
    · have hrefr := (h.current k other ho hopen hgen).1
      rw [hnone] at hrefr
      cases hrefr
  case refreshed =>
    rintro k other ⟨⟩ ho
    obtain rfl := Option.some.inj (hwr.self.symm.trans ho)
    exact Or.inl rfl
  case fine =>
    intro i phase hcall
    exact hwr.fine (fun before hf => absurd hf (hb before)) (h.fine i phase hcall)
  case usable =>
    exact fun i phase other hcall hretry =>
      h.usable i phase other hcall (hwr.retries nofun hretry)

theorem rotateAccessToken (h : Steady s) (hs : SingleFlight s) (happart : Apart s)
    (hnew : s.tasks j = none) (i : Nat)
    (hretry : ∀ refusal, purpose = .operation (some refusal) → s.activeRefreshToken ≠ none) :
    Steady (s.rotateAccessToken i j purpose) := by
  unfold State.rotateAccessToken
  split
  · rename_i joined hrefr
    have hheld := h.held (Or.inr (Or.inl (by simp [hrefr])))
    obtain ⟨task, htask, -⟩ := hs.tracked joined hrefr
    refine h.setCall i ?_ ?_ (fun _ => hheld) (by simp)
    · exact fine_awaiting htask (h.serves hs hrefr htask)
    · intro token hretries
      obtain ⟨found, hf, hph⟩ := retries_awaiting hretries
      exact h.usable_finished hs hrefr hf hph
  · rename_i hnone
    split
    · rename_i hact
      exact h.fail i fun refusal hsame => hretry refusal hsame hact
    · rename_i token hact
      have hpend : s.pendingRevocationToken = none :=
        happart.resolve_left (by simp [hact])
      refine (h.create hs hnone hact hpend hnew).setCall i ?_ ?_ ?_ ?_
      · exact fine_awaiting (State.setTask_self ..) (Or.inl ⟨rfl, rfl⟩)
      · intro other hretries
        obtain ⟨found, hf, hph⟩ := retries_awaiting hretries
        rw [State.setTask_self] at hf
        cases hf
        cases hph
      · exact fun _ => ⟨by simp [State.setTask, hact], hpend⟩
      · simp

theorem currentAccessToken (h : Steady s) (hs : SingleFlight s) (hnew : s.tasks j = none)
    (i : Nat) (fresh : Bool) (hpurpose : ∀ refusal, purpose ≠ .operation (some refusal)) :
    Steady (s.currentAccessToken i j fresh purpose) := by
  unfold State.currentAccessToken
  split
  · exact h.fail i hpurpose
  · rename_i hsome
    have happart : Apart s := Or.inr (by simpa using hsome)
    split
    · rename_i hacc
      refine h.deliver i (fun _ _ => h.held (Or.inl (by simp [hacc]))) ?_
      exact fun refusal hsame => absurd hsame (hpurpose refusal)
    · exact h.rotateAccessToken hs happart hnew i
        fun refusal hsame => absurd hsame (hpurpose refusal)

theorem refreshedAccessTokenAfterUnauthorized (h : Steady s) (hs : SingleFlight s)
    (hnew : s.tasks j = none) (hlease : generation ∈ s.leases) (i : Nat) :
    Steady (s.refreshedAccessTokenAfterUnauthorized i j generation) := by
  have happart : Apart s := by
    by_contra happart
    obtain ⟨hact, hpend⟩ := not_or.mp happart
    rw [(hs.exclusive hact hpend).2.1] at hlease
    cases hlease
  unfold State.refreshedAccessTokenAfterUnauthorized
  split
  · exact h.clearAccessToken.rotateAccessToken (hs.cache none) happart hnew i nofun
  · exact h.finish i .failed

variable {refused : Option Refusal}

theorem resumeOperation {answer : Option Refusal} (h : Steady s) (hs : SingleFlight s)
    (hcall : s.calls i = some (.operated token refused answer)) (hnew : s.tasks j = none) :
    Steady (s.resumeOperation i j refused answer) := by
  have happart := hs.apart_of_call hcall (by rintro _ _ ⟨⟩)
  cases answer with
  | none =>
    cases refused with
    | none => exact h.finish i .returned
    | some refusal => exact h.setCall i rfl nofun nofun (by simp)
  | some refusal =>
    cases refused with
    | none =>
      exact h.clearAccessToken.rotateAccessToken (hs.cache none) happart hnew i
        fun _ _ => (h.performs hcall rfl).1
    | some first =>
      have hnone : some refusal = none := h.fine i _ hcall
      cases hnone

theorem read (h : Steady s) (hcall : s.calls i = some (.operating token refused)) :
    Steady (s.setCall i (.operated token refused (s.server.refusal token))) := by
  refine h.setCall i ?_ nofun (fun _ => h.performs hcall rfl) (by simp)
  cases refused with
  | none => trivial
  | some refusal => exact (h.usable i _ token hcall rfl).1

theorem resumeRotation {creator : Option Nat} {res : Option Token} (h : Steady s)
    (hs : SingleFlight s) (hcall : s.calls i = some (.awaiting j creator purpose))
    (htask : s.tasks j = some task) (hph : task.phase = .finished res) :
    Steady (s.resumeRotation i creator purpose res) := by
  have hdrop : Steady (if creator = some s.sessionGeneration then
      { s with refreshTask := none } else s) := by
    split
    · rename_i hcreator
      subst hcreator
      exact h.drop (hs.creators i j _ hcall ⟨purpose, rfl⟩) htask (by rw [hph]; rfl)
    · exact h
  unfold State.resumeRotation
  cases res with
  | none =>
    cases purpose with
    | token | lease => exact hdrop.finish i .failed
    | operation refused =>
      obtain ⟨found, hf, hfine⟩ := h.fine i _ hcall
      obtain rfl := Option.some.inj (htask.symm.trans hf)
      simp [hph, TaskPhase.isOpen] at hfine
  | some token =>
    refine hdrop.deliver i ?_ ?_
    · rintro refused rfl
      have hheld := h.performs hcall rfl
      split <;> exact hheld
    · rintro refusal rfl
      have husable := h.usable i _ token hcall ⟨task, htask, hph⟩
      split <;> exact husable

/-! ## Tasks -/

theorem advance {phase : TaskPhase} (h : Steady s) (hs : SingleFlight s)
    (htask : s.tasks j = some task) (hwr : Writes s j { task with phase := phase } t)
    (hrest : t.accessToken = s.accessToken ∧ t.refreshTask = s.refreshTask ∧
      t.activeRefreshToken = s.activeRefreshToken)
    (hserves : task.Serves s.sessionGeneration → phase.isOpen = true)
    (hopen : phase.isOpen = true → task.phase.isOpen = true)
    (hph : ∀ token, phase ≠ .finished (some token))
    (hlive : ∀ token, Live s token → (s.activeRefreshToken = some token ∨
      task.refreshToken.session ≠ token.session) → Live t token)
    (hknown : ∀ token, GivenUp t token → t.server token.session ≠ none)
    (hrefusal : ∀ i phase token, s.calls i = some phase → phase.Retries s token →
      t.server.refusal token = s.server.refusal token) : Steady t := by
  obtain ⟨hacc, hrefr, hact⟩ := hrest
  constructor
  case active =>
    intro token htok
    rw [hact] at htok
    rw [hwr.pending]
    exact (h.active token htok).imp id (And.imp id fun hold => hlive token hold (Or.inl htok))
  case exchanged =>
    intro generation pair hlogin
    rw [hwr.login] at hlogin
    exact hlive _ (h.exchanged generation pair hlogin)
      (Or.inr ((hs.exchanged generation pair hlogin).2.2.2.2 j task htask))
  case known => exact hknown
  case held =>
    unfold Performing
    rw [hacc, hrefr, hact, hwr.pending, hwr.calls]
    exact h.held
  case current =>
    intro k other ho hotherOpen hgen
    rw [hwr.generation] at hgen
    rw [hrefr, hact]
    rcases hwr.task_cases ho with ⟨rfl, rfl⟩ | ⟨-, ho⟩
    · exact h.current k task htask (hopen hotherOpen) hgen
    · exact h.current k other ho hotherOpen hgen
  case refreshed =>
    intro k other hk ho
    rw [hrefr] at hk
    rw [hact]
    rcases hwr.task_cases ho with ⟨rfl, rfl⟩ | ⟨-, ho⟩
    · exact Or.inl (hserves (h.serves hs hk htask))
    · exact h.refreshed k other hk ho
  case fine =>
    intro i other hcall
    rw [hwr.calls] at hcall
    refine hwr.fine ?_ (h.fine i other hcall)
    intro before hb hold
    obtain rfl := Option.some.inj (htask.symm.trans hb)
    have ha := hserves hold
    have hgen := generation_of_serves hold (hopen ha)
    exact Or.inl ⟨ha, hgen⟩
  case usable =>
    intro i other token hcall hretry
    rw [hwr.calls] at hcall
    have hold := hwr.retries (hph token) hretry
    unfold Usable
    rw [hrefusal i other token hcall hold, hact]
    exact h.usable i other token hcall hold

theorem send (h : Steady s) (hs : SingleFlight s) (htask : s.tasks j = some task)
    (hph : task.phase = .created) : Steady (s.setTask j { task with phase := .sent }) := by
  have hopen : task.phase.isOpen = true := by rw [hph]; rfl
  have hwr : Writes s j { task with phase := .sent }
      (s.setTask j { task with phase := .sent }) := ⟨rfl, rfl, rfl, rfl, rfl, fun _ _ => rfl⟩
  refine h.advance hs htask hwr ⟨rfl, rfl, rfl⟩ (fun _ => rfl) (fun _ => hopen) nofun ?_ ?_
    fun _ _ _ _ _ => rfl
  · intro token hlive _
    refine hwr.live hlive rfl ?_ ?_ nofun
    · exact fun hsess _ => ⟨hlive.opened j task htask hsess hopen, nofun⟩
    · intro before pair hb _ hans
      obtain rfl := Option.some.inj (htask.symm.trans hb)
      rw [hph] at hans
      cases hans
  · exact fun token hgiven => h.known token ((hwr.givenUp hgiven).elim id nofun)

theorem revokes (h : Steady s) (hgiven : GivenUp s token) :
    Steady { s with server := s.server.revoke token } := by
  have hlive : ∀ {other}, Live s other →
      Live { s with server := s.server.revoke token } other := fun ho =>
    ho.same rfl (revoke_of_ne (ho.given token hgiven).symm) fun _ hmem => Or.inl hmem
  refine { h with
    active := fun other hact => (h.active other hact).imp id (And.imp id hlive)
    exchanged := fun generation pair hlogin => hlive (h.exchanged generation pair hlogin)
    known := ?_, usable := ?_ }
  · intro other ho
    obtain ⟨sess, hsess⟩ := Option.ne_none_iff_exists'.mp (h.known other ho)
    obtain ⟨later, hlat, -⟩ := revoke_advances s.server token _ _ hsess
    simp [hlat]
  · intro i phase other hcall hretry
    have hretry : phase.Retries s other := retries_congr rfl hretry
    obtain ⟨hrefusal, active, hact, hsess⟩ := h.usable i phase other hcall hretry
    have hlive := h.live hact (h.performs hcall (performing_of_retries hretry)).2
    refine ⟨?_, active, hact, hsess⟩
    rw [← hrefusal]
    refine refusal_congr (revoke_of_ne ?_)
    rw [hsess]
    exact (hlive.given token hgiven).symm

theorem retire {phase : TaskPhase} (h : Steady s) (hs : SingleFlight s)
    (htask : s.tasks j = some task)
    (hstale : (task.phase.isOpen = true ∧ task.generation ≠ s.sessionGeneration) ∨
      ∃ token, task.phase = .revoking token)
    (hph : phase = .finished none ∨
      (phase = .revoking task.refreshToken.next ∧ task.phase.isOpen = true)) :
    Steady (s.setTask j { task with phase := phase }) := by
  have hclos : phase.isOpen = false := by
    rcases hph with rfl | ⟨rfl, -⟩ <;> rfl
  have hnext : ∀ revoked, phase = .revoking revoked → revoked = task.refreshToken.next ∧
      task.phase.isOpen = true := by
    rintro revoked rfl
    rcases hph with hph | ⟨hph, hopen⟩
    · cases hph
    · exact ⟨TaskPhase.revoking.inj hph, hopen⟩
  have hunneeded : ¬task.Serves s.sessionGeneration := by
    rintro (⟨hopen, hcur⟩ | ⟨token, hfin⟩)
    · rcases hstale with ⟨-, hgen⟩ | ⟨revoked, hrevoking⟩
      · exact hgen hcur
      · rw [hrevoking] at hopen
        cases hopen
    · rcases hstale with ⟨hopen, -⟩ | ⟨revoked, hrevoking⟩
      · rw [hfin] at hopen
        cases hopen
      · rw [hfin] at hrevoking
        cases hrevoking
  have hwr : Writes s j { task with phase := phase }
      (s.setTask j { task with phase := phase }) := ⟨rfl, rfl, rfl, rfl, rfl, fun _ _ => rfl⟩
  refine h.advance hs htask hwr ⟨rfl, rfl, rfl⟩ (fun hserves => absurd hserves hunneeded) ?_ ?_
    ?_ ?_ fun _ _ _ _ _ => rfl
  · intro hopen
    rw [hclos] at hopen
    cases hopen
  · rcases hph with rfl | ⟨rfl, -⟩ <;> exact nofun
  · intro token hlive hused
    -- an open stale task is not of the stored session
    have hsess : task.phase.isOpen = true → task.refreshToken.session ≠ token.session := by
      rintro hopen hsame
      refine hused.elim ?_ fun hne => hne hsame
      obtain rfl := hlive.opened j task htask hsame hopen
      rcases hstale with ⟨-, hgen⟩ | ⟨revoked, hrevoking⟩
      · exact hs.not_stored htask hgen
      · rw [hrevoking] at hopen
        cases hopen
    refine hwr.live hlive rfl ?_ ?_ ?_
    · intro _ hopen
      rw [hclos] at hopen
      cases hopen
    · rintro before pair hb rfl hans
      obtain rfl := Option.some.inj (htask.symm.trans hb)
      exact hsess (by rw [hans]; rfl) rfl
    · intro revoked hrevoking
      obtain ⟨rfl, hopen⟩ := hnext revoked hrevoking
      exact hsess hopen
  · intro token hgiven
    rcases hwr.givenUp hgiven with hgiven | hrevoking
    · exact h.known token hgiven
    · obtain ⟨rfl, -⟩ := hnext token hrevoking
      obtain ⟨sess, hsess, -⟩ := hs.issued_tasks j task htask
      intro hnone
      rw [show s.server task.refreshToken.session = none from hnone] at hsess
      cases hsess

theorem rotate (h : Steady s) (hs : SingleFlight s) (htask : s.tasks j = some task)
    (hph : task.phase = .sent)
    (hcalm : ∀ i phase token, s.calls i = some phase → phase.Retries s token →
      token.session ≠ task.refreshToken.session) :
    Steady { s.setTask j
        { task with phase := .answered (s.server.rotate task.refreshToken).1 } with
      server := (s.server.rotate task.refreshToken).2 } := by
  have hopen : task.phase.isOpen = true := by rw [hph]; rfl
  have hwr : Writes s j { task with phase := .answered (s.server.rotate task.refreshToken).1 }
      { s.setTask j { task with phase := .answered (s.server.rotate task.refreshToken).1 } with
        server := (s.server.rotate task.refreshToken).2 } :=
    ⟨rfl, rfl, rfl, rfl, rfl, fun _ hname => rotate_of_ne hname⟩
  have hgiven : ∀ {token}, GivenUp _ token → GivenUp s token := fun hgiven =>
    (hwr.givenUp hgiven).elim id nofun
  refine h.advance hs htask hwr ⟨rfl, rfl, rfl⟩ (fun _ => rfl) (fun _ => hopen) nofun ?_ ?_ ?_
  · intro token hlive _
    by_cases hsess : task.refreshToken.session = token.session
    · obtain rfl := hlive.opened j task htask hsess hopen
      have hsame : ∀ {k found}, s.tasks k = some found →
          found.refreshToken = task.refreshToken → k = j :=
        fun hf hsame => hs.distinct _ j _ task hf htask hsame
      have hunreplied : ¬Replied s task.refreshToken := by
        rintro ⟨k, found, pair, hf, htok, hans⟩
        obtain rfl := hsame hf htok
        rw [htask] at hf
        cases hf
        rw [hph] at hans
        cases hans
      have hsrv := (hlive.session.resolve_right fun hreplied => hunreplied hreplied.2).1
      have hrotate := rotate_live hsrv
      constructor
      · rw [hrotate]
        refine Or.inr ⟨Function.update_self .., j, _, _, State.setTask_self .., rfl, rfl⟩
      · intro k found hf htok hans
        rcases hwr.task_cases hf with ⟨-, rfl⟩ | ⟨hk, hf⟩
        · rw [hrotate] at hans
          cases hans
        · exact hk (hsame hf htok)
      · intro k found hf hsame hfoundOpen
        rcases hwr.task_cases hf with ⟨-, rfl⟩ | ⟨-, hf⟩
        · rfl
        · exact hlive.opened k found hf hsame hfoundOpen
      · exact fun given hmem => hlive.given given (hgiven hmem)
    · refine hwr.live_apart hlive ?_ hsess nofun
      intro before hb
      obtain rfl := Option.some.inj (htask.symm.trans hb)
      rfl
  · intro token hmem
    obtain ⟨sess, hsess⟩ := Option.ne_none_iff_exists'.mp (h.known token (hgiven hmem))
    obtain ⟨later, hlat, -⟩ := rotate_advances s.server task.refreshToken _ _ hsess
    simp [hlat]
  · exact fun i phase token hcall hretry =>
      refusal_congr (rotate_of_ne (hcalm i phase token hcall hretry))

variable {reply : Option NativeTokenPair}

theorem settle_stale (h : Steady s) (hs : SingleFlight s) (htask : s.tasks j = some task)
    (hopen : task.phase.isOpen = true) (hstale : task.generation ≠ s.sessionGeneration)
    (hrep : ∀ pair, reply = some pair → task.phase = .answered (some pair)) :
    Steady (s.refreshAccessToken j task reply) := by
  cases reply with
  | none =>
    simp only [State.refreshAccessToken]
    split
    · rename_i hcur
      exact absurd hcur hstale
    · exact h.retire hs htask (Or.inl ⟨hopen, hstale⟩) (Or.inl rfl)
  | some pair =>
    obtain ⟨hpair, -⟩ := hs.answered j task pair htask (hrep pair rfl)
    simp only [State.refreshAccessToken, if_pos hstale, hpair]
    exact h.retire hs htask (Or.inl ⟨hopen, hstale⟩) (Or.inr ⟨rfl, hopen⟩)

theorem settle_current (h : Steady s) (hs : SingleFlight s) (htask : s.tasks j = some task)
    (hph : task.phase = .answered reply) (hcur : task.generation = s.sessionGeneration) :
    Steady (s.refreshAccessToken j task reply) := by
  have hopen : task.phase.isOpen = true := by rw [hph]; rfl
  obtain ⟨hrefr, hact⟩ := h.current j task htask hopen hcur
  have hpend : s.pendingRevocationToken = none :=
    (h.held (Or.inr (Or.inl (by simp [hrefr])))).2
  have hlive := h.live hact hpend
  cases reply with
  | none => exact absurd hph (hlive.denied j task htask rfl)
  | some pair =>
  obtain ⟨rfl, hiss, -, hunused⟩ := hs.answered j task pair htask hph
  have hsrv : s.server task.refreshToken.session =
      some ⟨task.refreshToken.number + 1, false⟩ := by
    rcases hlive.session with ⟨-, hunreplied⟩ | ⟨hsrv, -⟩
    · exact absurd ⟨j, task, _, htask, rfl, hph⟩ hunreplied
    · exact hsrv
  have hst : s.refreshAccessToken j task
      (some ⟨task.refreshToken.next, task.refreshToken.next⟩) =
      { s.setTask j { task with phase := .finished (some task.refreshToken.next) } with
        activeRefreshToken := some task.refreshToken.next,
        accessToken := some task.refreshToken.next } := by
    have hnil : ¬s.pendingRevocationToken.isSome = true := by simp [hpend]
    simp only [State.refreshAccessToken]
    rw [if_neg (not_not.mpr hcur), if_neg hnil]
    rfl
  rw [hst]
  have hwr : Writes s j { task with phase := .finished (some task.refreshToken.next) }
      { s.setTask j { task with phase := .finished (some task.refreshToken.next) } with
        activeRefreshToken := some task.refreshToken.next,
        accessToken := some task.refreshToken.next } :=
    ⟨rfl, rfl, rfl, rfl, rfl, fun _ _ => rfl⟩
  have hgiven : ∀ {token}, GivenUp _ token → GivenUp s token := fun hgiven =>
    (hwr.givenUp hgiven).elim id (by simp)
  constructor
  case active =>
    rintro token ⟨⟩
    refine Or.inr ⟨hpend, ?_⟩
    constructor
    · refine Or.inl ⟨hsrv, ?_⟩
      rintro ⟨k, other, pair, ho, hsame, -⟩
      rcases hwr.task_cases ho with ⟨-, rfl⟩ | ⟨-, ho⟩
      · exact hunused j task htask hsame
      · exact hunused k other ho hsame
    · rintro k other ho hsame -
      rcases hwr.task_cases ho with ⟨-, rfl⟩ | ⟨-, ho⟩
      · exact hunused j task htask hsame
      · exact hunused k other ho hsame
    · intro k other ho hsess hotherOpen
      rcases hwr.task_cases ho with ⟨-, rfl⟩ | ⟨hk, ho⟩
      · cases hotherOpen
      · have hsame := hlive.opened k other ho hsess hotherOpen
        exact absurd (hs.distinct k j other task ho htask hsame) hk
    · exact fun given hmem => hlive.given given (hgiven hmem)
  case exchanged =>
    intro generation pair hlogin
    refine hwr.live_apart (h.exchanged generation pair hlogin) ?_
      ((hs.exchanged generation pair hlogin).2.2.2.2 j task htask) (by simp)
    intro before hb
    obtain rfl := Option.some.inj (htask.symm.trans hb)
    rfl
  case known => exact fun token ho => h.known token (hgiven ho)
  case held => exact fun _ => ⟨by rintro ⟨⟩, hpend⟩
  case current =>
    intro k other ho hotherOpen hgen
    rcases hwr.task_cases ho with ⟨-, rfl⟩ | ⟨hk, ho⟩
    · cases hotherOpen
    · obtain ⟨hrefr', -⟩ := h.current k other ho hotherOpen hgen
      exact absurd (Option.some.inj (hrefr'.symm.trans hrefr)) hk
  case refreshed =>
    intro k other hrefr' ho
    obtain rfl := Option.some.inj (hrefr.symm.trans hrefr')
    rcases hwr.task_cases ho with ⟨-, rfl⟩ | ⟨hk, -⟩
    · exact Or.inr rfl
    · exact absurd rfl hk
  case fine =>
    exact fun k other hcall => hwr.fine (fun _ _ _ => Or.inr ⟨_, rfl⟩) (h.fine k other hcall)
  case usable =>
    intro k other token hcall hretry
    by_cases hnext : token = task.refreshToken.next
    · subst hnext
      refine ⟨?_, _, rfl, rfl⟩
      simp only [Server.refusal, Token.next, State.setTask, hsrv]
      simp
    · have hretry : other.Retries s token := by
        refine hwr.retries ?_ hretry
        exact fun hfin => hnext (Option.some.inj (TaskPhase.finished.inj hfin)).symm
      obtain ⟨hrefusal, stored, hsto, hsess⟩ := h.usable k other token hcall hretry
      obtain rfl := Option.some.inj (hact.symm.trans hsto)
      exact ⟨hrefusal, _, rfl, hsess⟩

/-! ## Logging out and in -/

variable {active pending : Option Token} {login : Option Login}

/-- The session is invalidated while no operation is under way. -/
theorem renew (h : Steady s) (hs : SingleFlight s) (hidle : ¬Performing s)
    (hact : active = none ∨ (active = s.activeRefreshToken ∧
      pending = s.pendingRevocationToken ∧ s.pendingRevocationToken ≠ none))
    (hpend : ∀ token, pending = some token →
      s.pendingRevocationToken = some token ∨ s.activeRefreshToken = some token)
    (hlogin : login = s.login ∨ ∃ ent, login = some ent ∧
      (∀ pair, ent.phase ≠ .exchanged pair) ∧
        ∀ token, ent.phase.GivesUp token → pending = some token)
    :
    Steady { s.invalidateSession with
      activeRefreshToken := active, pendingRevocationToken := pending, login := login } := by
  have hgiven : ∀ other, GivenUp { s.invalidateSession with
      activeRefreshToken := active, pendingRevocationToken := pending, login := login } other →
      GivenUp s other ∨ s.activeRefreshToken = some other := by
    have hsto : ∀ other, pending = some other →
        GivenUp s other ∨ s.activeRefreshToken = some other := fun other ho =>
      (hpend other ho).imp Or.inl id
    rintro other (ho | hcall | ⟨ent, hent, hgives⟩ | htask)
    · exact hsto other ho
    · exact Or.inl (Or.inr (Or.inl hcall))
    · rcases hlogin with rfl | ⟨first, rfl, -, hfst⟩
      · exact Or.inl (Or.inr (Or.inr (Or.inl ⟨ent, hent, hgives⟩)))
      · cases hent
        exact hsto other (hfst other hgives)
    · exact Or.inl (Or.inr (Or.inr (Or.inr htask)))
  have hwait : ∀ {i phase}, s.calls i = some phase → phase.performing = false := by
    intro i phase hcall
    by_contra hperforming
    exact hidle ⟨i, phase, hcall, by simpa using hperforming⟩
  constructor
  case active =>
    intro token htok
    rcases hact with rfl | ⟨rfl, rfl, hne⟩
    · cases htok
    · refine (h.active token htok).imp id ?_
      exact fun hlive => absurd hlive.1 hne
  case exchanged =>
    intro generation pair hent
    rcases hlogin with rfl | ⟨first, rfl, hfst, -⟩
    · refine (h.exchanged generation pair hent).same rfl rfl ?_
      exact fun other ho => (hgiven other ho).imp id
        ((hs.exchanged generation pair hent).2.2.2.1 other)
    · cases hent
      exact absurd rfl (hfst pair)
  case known =>
    intro token ho
    rcases hgiven token ho with ho | hsto
    · exact h.known token ho
    · obtain ⟨sess, hsess, -⟩ := hs.issued_active token hsto
      intro hnone
      rw [show s.server token.session = none from hnone] at hsess
      cases hsess
  case held =>
    rintro (hne | hne | hperforming)
    · exact absurd rfl hne
    · exact absurd rfl hne
    · exact absurd hperforming hidle
  case current =>
    intro j task htask _ hgen
    have hle := hs.tasks_le j task htask
    rw [show task.generation = s.sessionGeneration + 1 from hgen] at hle
    exact absurd hle (Nat.not_succ_le_self _)
  case refreshed => exact nofun
  case fine =>
    intro i phase hcall
    have hfine := h.fine i phase hcall
    have hnot := hwait hcall
    cases phase with
    | awaiting j creator purpose =>
      cases purpose with
      | token | lease => trivial
      | operation refused => cases hnot
    | operated => cases hnot
    | ended refused outcome => cases refused <;> exact hfine
    | operating | revoking | revoked => trivial
  case usable =>
    intro i phase token hcall hretry
    have hperforming := performing_of_retries hretry
    rw [hwait hcall] at hperforming
    cases hperforming

theorem logout (h : Steady s) (hs : SingleFlight s) (hidle : ¬Performing s) (i : Nat) :
    Steady (s.logout i) := by
  have hinvalid : s.activeRefreshToken = none ∨ s.pendingRevocationToken ≠ none →
      Steady s.invalidateSession := by
    intro hor
    refine h.renew hs hidle ?_ (fun token htok => Or.inl htok) (Or.inl rfl)
    exact hor.imp id fun hne => ⟨rfl, rfl, hne⟩
  simp only [State.logout]
  split
  · rename_i hact
    have hrenew := hinvalid (Or.inl hact)
    split
    · exact hrenew.finish i .returned
    · rename_i pending hpend
      refine hrenew.setCall i trivial (by rintro _ ⟨⟩) (by rintro ⟨⟩) ?_
      rintro token (hsame | hsame)
      · cases hsame
        exact Or.inl hpend
      · cases hsame
  · rename_i active hact
    split
    · rename_i href
      refine (hinvalid (Or.inr ?_)).finish i .failed
      intro hnone
      simp [State.quarantine, State.invalidateSession, hnone] at href
    · rename_i quarantined hquar
      unfold State.quarantine at hquar
      split at hquar
      · cases hquar
        have hrenew : Steady { s.invalidateSession with
            activeRefreshToken := none, pendingRevocationToken := some active } := by
          refine h.renew hs hidle (Or.inl rfl) ?_ (Or.inl rfl)
          rintro token ⟨⟩
          exact Or.inr hact
        refine hrenew.setCall i trivial (by rintro _ ⟨⟩) (by rintro ⟨⟩) ?_
        rintro token (hsame | hsame)
        · cases hsame
          exact Or.inl rfl
        · cases hsame
      · cases hquar

theorem entering_gives (hgives : (SingleFlight.entering active).GivesUp token) :
    active = some token := by
  cases active with
  | none => exact hgives.elim
  | some active => exact congrArg some hgives

theorem beginLogin (h : Steady s) (hs : SingleFlight s) (hidle : ¬Performing s) :
    Steady s.beginLogin := by
  simp only [State.beginLogin]
  split
  · rename_i pending hpend
    have hsome : s.pendingRevocationToken = some pending := hpend
    refine h.renew hs hidle (Or.inr ⟨rfl, rfl, by simp [hsome]⟩) (fun token htok => Or.inl htok)
      (Or.inr ⟨_, rfl, (by simp), ?_⟩)
    rintro token ⟨⟩
    exact hsome
  · rename_i hpend
    rw [SingleFlight.loginActive_eq hpend]
    refine h.renew hs hidle (Or.inl rfl) (fun token htok => Or.inr htok)
      (Or.inr ⟨_, rfl, SingleFlight.entering_ne _, ?_⟩)
    exact fun token hgives => entering_gives hgives

/-- What would need the stored credential. -/
def Needed (s : State) : Prop :=
  s.accessToken ≠ none ∨ s.refreshTask ≠ none ∨ Performing s

theorem shrink (h : Steady s)
    (hact : (active = none ∧ ¬Needed s) ∨
      (active = s.activeRefreshToken ∧ pending = s.pendingRevocationToken))
    (hpend : ∀ token, pending = some token → s.pendingRevocationToken = some token)
    (hgives : ∀ ent token, login = some ent → ent.phase.GivesUp token →
      GivenUp s token ∨ (s.server token.session ≠ none ∧
        ∀ stored, s.activeRefreshToken = some stored → token.session ≠ stored.session))
    (hexch : ∀ generation pair, login = some ⟨generation, .exchanged pair⟩ →
      s.login = some ⟨generation, .exchanged pair⟩)
    :
    Steady { s with
      activeRefreshToken := active, pendingRevocationToken := pending, login := login } := by
  have hgiven : ∀ other, GivenUp { s with
      activeRefreshToken := active, pendingRevocationToken := pending, login := login } other →
      GivenUp s other ∨ ∃ ent, login = some ent ∧ ent.phase.GivesUp other := by
    rintro other (ho | hcall | hlogin | htask)
    · exact Or.inl (Or.inl (hpend other ho))
    · exact Or.inl (Or.inr (Or.inl hcall))
    · exact Or.inr hlogin
    · exact Or.inl (Or.inr (Or.inr (Or.inr htask)))
  have hneeded : Needed s → active = s.activeRefreshToken ∧ pending = s.pendingRevocationToken :=
    fun hneeded => hact.resolve_left fun hnot => hnot.2 hneeded
  constructor
  case active =>
    intro token htok
    rcases hact with ⟨rfl, -⟩ | ⟨rfl, rfl⟩
    · cases htok
    · refine (h.active token htok).imp id (And.imp id ?_)
      intro hlive
      refine hlive.same rfl rfl ?_
      intro other ho
      rcases hgiven other ho with ho | ⟨ent, hent, ho⟩
      · exact Or.inl ho
      · exact (hgives ent other hent ho).imp id fun hnew => hnew.2 token htok
  case exchanged =>
    intro generation pair hent
    refine (h.exchanged generation pair (hexch generation pair hent)).same rfl rfl ?_
    intro other ho
    rcases hgiven other ho with ho | ⟨ent, hent', ho⟩
    · exact Or.inl ho
    · obtain rfl := Option.some.inj (hent.symm.trans hent')
      exact ho.elim
  case known =>
    intro token ho
    rcases hgiven token ho with ho | ⟨ent, hent, ho⟩
    · exact h.known token ho
    · exact (hgives ent token hent ho).elim (h.known token) And.left
  case held =>
    intro hneed
    obtain ⟨rfl, rfl⟩ := hneeded hneed
    exact h.held hneed
  case current =>
    intro j task htask hopen hgen
    obtain ⟨hrefr, hsto⟩ := h.current j task htask hopen hgen
    obtain ⟨rfl, -⟩ := hneeded (Or.inr (Or.inl (by simp [hrefr])))
    exact ⟨hrefr, hsto⟩
  case refreshed =>
    intro j task hrefr htask
    have hsome : s.refreshTask = some j := hrefr
    obtain ⟨rfl, -⟩ := hneeded (Or.inr (Or.inl (by simp [hsome])))
    exact h.refreshed j task hrefr htask
  case fine =>
    exact fun i phase hcall => fine_congr rfl rfl (h.fine i phase hcall)
  case usable =>
    intro i phase token hcall hretry
    have hretry : phase.Retries s token := retries_congr rfl hretry
    obtain ⟨rfl, -⟩ := hneeded (Or.inr (Or.inr ⟨i, phase, hcall, performing_of_retries hretry⟩))
    exact h.usable i phase token hcall hretry

theorem not_needed (h : Steady s)
    (hnone : s.activeRefreshToken = none ∨ s.pendingRevocationToken ≠ none) : ¬Needed s := by
  intro hneeded
  obtain ⟨hact, hpend⟩ := h.held hneeded
  exact hnone.elim hact fun hne => hne hpend

theorem forget_cases (h : Steady s) (hgiven : GivenUp s token) :
    ((s.forgetRevoked token).activeRefreshToken = none ∧ ¬Needed s) ∨
      ((s.forgetRevoked token).activeRefreshToken = s.activeRefreshToken ∧
        (s.forgetRevoked token).pendingRevocationToken = s.pendingRevocationToken) := by
  cases hact : s.activeRefreshToken with
  | none => exact Or.inl ⟨by simp [State.forgetRevoked, hact], h.not_needed (Or.inl hact)⟩
  | some stored =>
    rcases h.active stored hact with hpend | ⟨hpend, hlive⟩
    · by_cases hsame : stored = token
      · refine Or.inl ⟨by simp [State.forgetRevoked, hact, hsame], h.not_needed (Or.inr ?_)⟩
        simp [hpend]
      · exact Or.inr ⟨by simp [State.forgetRevoked, hact, hsame],
          by simp [State.forgetRevoked, hpend, hsame]⟩
    · have hne : stored ≠ token := by
        rintro rfl
        exact hlive.given stored hgiven rfl
      exact Or.inr ⟨by simp [State.forgetRevoked, hact, hne],
        by simp [State.forgetRevoked, hpend]⟩

theorem forget_pending (s : State) (token : Token) : ∀ other,
    (s.forgetRevoked token).pendingRevocationToken = some other →
      s.pendingRevocationToken = some other := by
  intro other ho
  simp only [State.forgetRevoked] at ho
  split at ho
  · cases ho
  · exact ho

theorem forget (h : Steady s) (hgiven : GivenUp s token) : Steady (s.forgetRevoked token) :=
  h.shrink (h.forget_cases hgiven) (forget_pending s token)
    (fun ent _ hent hgives => Or.inl (Or.inr (Or.inr (Or.inl ⟨ent, hent, hgives⟩))))
    (fun _ _ hlogin => hlogin)

theorem enter (h : Steady s)
    (hgives : ∀ ent token, login = some ent → ent.phase.GivesUp token →
      GivenUp s token ∨ (s.server token.session ≠ none ∧
        ∀ stored, s.activeRefreshToken = some stored → token.session ≠ stored.session))
    (hexch : ∀ generation pair, login ≠ some ⟨generation, .exchanged pair⟩) :
    Steady (s.setLogin login) :=
  h.shrink (Or.inr ⟨rfl, rfl⟩) (fun _ htok => htok) hgives
    (fun generation pair hlogin => absurd hlogin (hexch generation pair))

theorem leave (h : Steady s) : Steady (s.setLogin none) :=
  h.enter nofun nofun

theorem loginRevoked {wasActive : Bool} (h : Steady s) (hs : SingleFlight s)
    (hlogin : s.login = some ⟨generation, .revoked token wasActive⟩) :
    Steady (s.loginRevoked generation token wasActive) := by
  have hgiven : GivenUp s token := Or.inr (Or.inr (Or.inl ⟨_, hlogin, rfl⟩))
  have hforgotten : ∀ login : Option Login,
      (∀ ent token, login = some ent → ¬ent.phase.GivesUp token) →
      (∀ generation pair, login ≠ some ⟨generation, .exchanged pair⟩) →
      Steady ((s.forgetRevoked token).setLogin login) := by
    intro login hgives hexch
    refine h.shrink (h.forget_cases hgiven) (forget_pending s token) ?_ ?_
    · exact fun ent other hent ho => absurd ho (hgives ent other hent)
    · exact fun generation pair hent => absurd hent (hexch generation pair)
  simp only [State.loginRevoked]
  split
  · exact hforgotten none (by simp) (by simp)
  · rename_i hstale
    obtain ⟨-, hsto, hnil⟩ := hs.alone _ hlogin (not_not.mp hstale)
    have hbrowsing : Steady ((s.forgetRevoked token).setLogin (some ⟨generation, .browsing⟩)) := by
      refine hforgotten _ ?_ (by simp)
      rintro _ other ⟨⟩
      exact id
    split
    · exact hbrowsing
    · have hnone : (s.forgetRevoked token).activeRefreshToken = none := by
        by_cases hpend : s.pendingRevocationToken = none
        · simp [State.forgetRevoked, hnil (Or.inr hpend)]
        · have hsome := hsto.resolve_left hpend
          simp only [State.forgetRevoked]
          split
          · rfl
          · rename_i hne
            by_contra hact
            obtain ⟨stored, hsto⟩ := Option.ne_none_iff_exists'.mp hact
            rcases h.active stored hsto with hsame | ⟨hpend', -⟩
            · exact hne (by rw [hsto, ← hsame, hsome])
            · exact hpend hpend'
      unfold State.loginActive
      rw [hnone]
      exact hbrowsing

theorem exchange {session : Nat} (h : Steady s) (hs : SingleFlight s)
    (hnew : s.server session = none) :
    Steady { s.setLogin (some ⟨generation, .exchanged ⟨⟨session, 0⟩, ⟨session, 0⟩⟩⟩) with
      server := Function.update s.server session (some ⟨0, false⟩) } := by
  have ho : ∀ {name : Nat}, s.server name ≠ none → name ≠ session := by
    rintro name hne rfl
    exact hne hnew
  have hiss : ∀ {token}, Issued s.server token → token.session ≠ session := by
    rintro token ⟨found, hf, -⟩
    exact ho (by simp [hf])
  have hgiven : ∀ {other}, GivenUp { s.setLogin
        (some ⟨generation, .exchanged ⟨⟨session, 0⟩, ⟨session, 0⟩⟩⟩) with
      server := Function.update s.server session (some ⟨0, false⟩) } other → GivenUp s other := by
    rintro other (hmem | hcall | ⟨ent, ⟨⟩, hgives⟩ | htask)
    · exact Or.inl hmem
    · exact Or.inr (Or.inl hcall)
    · exact hgives.elim
    · exact Or.inr (Or.inr (Or.inr htask))
  refine { h with active := ?_, exchanged := ?_, known := ?_, fine := ?_, usable := ?_ }
  · intro token hact
    refine (h.active token hact).imp id (And.imp id ?_)
    intro hlive
    refine hlive.same rfl ?_ fun _ hmem => Or.inl (hgiven hmem)
    exact Function.update_of_ne (hiss (hs.issued_active token hact)) ..
  · rintro _ _ ⟨⟩
    constructor
    · refine Or.inl ⟨Function.update_self .., ?_⟩
      rintro ⟨j, task, pair, htask, hsame, -⟩
      exact hiss (hs.issued_tasks j task htask) (congrArg Token.session hsame)
    · intro j task htask hsame
      exact absurd (congrArg Token.session hsame) (hiss (hs.issued_tasks j task htask))
    · intro j task htask hsess
      exact absurd hsess (hiss (hs.issued_tasks j task htask))
    · exact fun other hmem => ho (h.known other (hgiven hmem))
  · intro token hmem
    have hne := h.known token (hgiven hmem)
    have hsame : Function.update s.server session (some ⟨0, false⟩) token.session =
        s.server token.session := Function.update_of_ne (ho hne) ..
    exact fun hnone => hne (hsame.symm.trans hnone)
  · exact fun i phase hcall => fine_congr rfl rfl (h.fine i phase hcall)
  · intro i phase token hcall hretry
    have hretry : phase.Retries s token := retries_congr rfl hretry
    obtain ⟨hrefusal, stored, hsto, hsess⟩ := h.usable i phase token hcall hretry
    refine ⟨?_, stored, hsto, hsess⟩
    rw [← hrefusal]
    refine refusal_congr (Function.update_of_ne ?_ ..)
    rw [hsess]
    exact hiss (hs.issued_active stored hsto)

theorem loginExchanged {pair : NativeTokenPair} (h : Steady s) (hs : SingleFlight s)
    (hlogin : s.login = some ⟨generation, .exchanged pair⟩) :
    Steady (s.loginExchanged generation pair) := by
  obtain ⟨⟨sess, hsess, -⟩, -, -, hact, -⟩ := hs.exchanged generation pair hlogin
  simp only [State.loginExchanged]
  split
  · refine h.enter ?_ (by simp)
    rintro _ token ⟨⟩ ⟨⟩
    exact Or.inr ⟨by simp [hsess], fun stored hsto => (hact stored hsto).symm⟩
  · rename_i hstale
    have hcur := not_not.mp hstale
    obtain ⟨hos, hnone, hpend⟩ := hs.alone _ hlogin hcur
    have hidle : ¬Needed s := h.not_needed (Or.inl hnone)
    have hlive := h.exchanged generation pair hlogin
    have hgiven : ∀ {other}, GivenUp (({ s with
        activeRefreshToken := some pair.refreshToken }.apply pair).setLogin none) other →
        GivenUp s other := by
      rintro other (hmem | hcall | ⟨ent, ⟨⟩, -⟩ | htask)
      · exact Or.inl hmem
      · exact Or.inr (Or.inl hcall)
      · exact Or.inr (Or.inr (Or.inr htask))
    constructor
    case active =>
      rintro token ⟨⟩
      exact Or.inr ⟨hpend, hlive.same rfl rfl fun _ hmem => Or.inl (hgiven hmem)⟩
    case exchanged => rintro _ _ ⟨⟩
    case known => exact fun token hmem => h.known token (hgiven hmem)
    case held => exact fun _ => ⟨by rintro ⟨⟩, hpend⟩
    case current =>
      intro j task htask _ hgen
      exact absurd hgen (hos j task htask)
    case refreshed =>
      intro j task hrefr
      exact absurd (Or.inr (Or.inl (by simp [show s.refreshTask = some j from hrefr]))) hidle
    case fine =>
      exact fun i phase hcall => fine_of_tasks
        (fun j task htask hfine => ⟨task, htask, hfine⟩) (h.fine i phase hcall)
    case usable =>
      intro i phase token hcall hretry
      have hretry : phase.Retries s token := retries_congr rfl hretry
      exact absurd (Or.inr (Or.inr ⟨i, phase, hcall, performing_of_retries hretry⟩)) hidle

end Steady

/-- Nothing that was asked for is lost. -/
def Answered (e : Transition State Event) : Prop :=
  e.label ≠ .lost

/-- Nobody logs out, and nobody logs in anew, under a call that performs an operation. -/
def StaysSignedIn (e : Transition State Event) : Prop :=
  (e.label = .login ∨ ∃ i, e.label = .logout i) → ¬Performing e.before

/-- The server does not rotate a session while a second operation has its latest token. -/
def Undisturbed (e : Transition State Event) : Prop :=
  ∀ j refreshToken, e.label = .rotate j refreshToken → ∀ i phase token,
    e.before.calls i = some phase → phase.Retries e.before token →
      token.session ≠ refreshToken.session

theorem Steady.step (h : Steady s) (hs : SingleFlight s) (hstep : Step s event t)
    (hans : Answered ⟨s, event, t⟩) (hstays : StaysSignedIn ⟨s, event, t⟩)
    (hcalm : Undisturbed ⟨s, event, t⟩) : Steady t := by
  cases hstep with
  | currentAccessToken fresh _ hfresh => exact h.currentAccessToken hs hfresh _ fresh (by simp)
  | recordingAccessTokenLease fresh _ hfresh => exact h.currentAccessToken hs hfresh _ fresh (by simp)
  | performAuthenticated fresh _ hfresh => exact h.currentAccessToken hs hfresh _ fresh (by simp)
  | refreshedAccessTokenAfterUnauthorized _ hfresh hlease =>
    exact h.refreshedAccessTokenAfterUnauthorized hs hfresh hlease _
  | send htask hph => exact h.send hs htask hph
  | rotate htask hph => exact h.rotate hs htask hph (hcalm _ _ rfl)
  | @settle j task reply htask hph =>
    by_cases hcur : task.generation = s.sessionGeneration
    · exact h.settle_current hs htask hph hcur
    · refine h.settle_stale hs htask (by rw [hph]; rfl) hcur ?_
      rintro pair rfl
      exact hph
  | @refreshCancelled j task htask hasking hstale =>
    have hopen : task.phase.isOpen = true := by
      cases hph : task.phase <;> simp_all [TaskPhase.asking, TaskPhase.isOpen]
    exact h.settle_stale hs htask hopen hstale (by simp)
  | @pairRevoked j task token htask hph =>
    have hgiven : GivenUp s token := Or.inr (Or.inr (Or.inr ⟨j, task, htask, hph⟩))
    exact (h.revokes hgiven).retire (hs.server (revoke_advances s.server token)) htask
      (Or.inr ⟨token, hph⟩) (Or.inl rfl)
  | resumeRotation hcall htask hph => exact h.resumeRotation hs hcall htask hph
  | read hcall => exact h.read hcall
  | resumeOperation hcall hfresh => exact h.resumeOperation hs hcall hfresh
  | @logout i hfresh => exact h.logout hs (hstays (Or.inr ⟨i, rfl⟩)) i
  | @logoutServed i pending hcall =>
    have hgiven : GivenUp s pending := Or.inr (Or.inl ⟨i, Or.inl hcall⟩)
    refine (h.revokes hgiven).setCall i trivial (by rintro _ ⟨⟩) (by rintro ⟨⟩) ?_
    rintro token (hsame | hsame)
    · cases hsame
    · cases hsame
      exact hgiven
  | @logoutRevoked i pending hcall =>
    exact (h.forget (Or.inr (Or.inl ⟨i, Or.inr hcall⟩))).finish i .returned
  | login _ => exact h.beginLogin hs (hstays (Or.inl rfl))
  | @loginServed generation pending wasActive hlogin =>
    have hgiven : GivenUp s pending := Or.inr (Or.inr (Or.inl ⟨_, hlogin, rfl⟩))
    refine (h.revokes hgiven).enter ?_ (by rintro _ _ ⟨⟩)
    rintro _ token ⟨⟩ ⟨⟩
    exact Or.inl hgiven
  | loginRevoked hlogin => exact h.loginRevoked hs hlogin
  | @loginAuthorized generation hlogin =>
    simp only [State.loginAuthorized]
    split
    · exact h.leave
    · refine h.enter ?_ (by rintro _ _ ⟨⟩)
      rintro _ token ⟨⟩ hgives
      exact hgives.elim
  | loginAbandoned _ => exact h.leave
  | loginExchange _ hnew => exact h.exchange hs hnew
  | loginRefused _ => exact h.leave
  | loginExchanged hlogin => exact h.loginExchanged hs hlogin
  | @loginDiscarded generation token hlogin =>
    exact (h.revokes (Or.inr (Or.inr (Or.inl ⟨_, hlogin, rfl⟩)))).leave
  | refreshLost | pairRevokeLost | operationLost | answerLost | logoutLost | loginLost =>
    exact absurd rfl hans

/-- No refresh token is sent twice, whatever is lost.  In a run where every
request is answered, nobody logs out under an operation, and the server does not
rotate a session between giving a second operation its token and reading it, an
operation that was refused because its token was superseded ends with its result. -/
theorem client_not_locked_out {start final : State} {trace : List (Transition State Event)}
    (hinitial : Initial start) (hrun : Run Step start trace final) :
    (∀ token, sends token trace ≤ 1) ∧
      (Kept start → (∀ e ∈ trace, Answered e ∧ StaysSignedIn e) → (∀ e ∈ trace, Undisturbed e) →
        ∀ i outcome, final.calls i = some (.ended (some .superseded) outcome) →
          outcome = .returned) := by
  refine ⟨fun token => sends_le_one hinitial hrun token, ?_⟩
  intro hkept hanswered hundisturbed i outcome hended
  have key : SingleFlight final ∧ ((∀ e ∈ trace, Answered e ∧ StaysSignedIn e ∧ Undisturbed e) →
      Steady final) := by
    refine hrun.invariant (I := fun trace s => SingleFlight s ∧
      ((∀ e ∈ trace, Answered e ∧ StaysSignedIn e ∧ Undisturbed e) → Steady s))
      ⟨singleFlight_initial hinitial, fun _ => steady_initial hinitial hkept⟩ ?_
    rintro trace s event t ⟨hsingle, hsteady⟩ hstep
    refine ⟨hsingle.step hstep, ?_⟩
    intro hall
    obtain ⟨hanswered, hstays, hundisturbed⟩ := hall ⟨s, event, t⟩ (by simp)
    have hbefore := hsteady fun e he => hall e (List.mem_append_left _ he)
    exact hbefore.step hsingle hstep hanswered hstays hundisturbed
  have hsteady := key.2 fun e he => ⟨(hanswered e he).1, (hanswered e he).2, hundisturbed e he⟩
  exact hsteady.fine i _ hended

/-- A stored refresh token, and nothing running yet. -/
def sampleStart : State where
  accessToken := none
  refreshTask := none
  sessionGeneration := 0
  login := none
  activeRefreshToken := some ⟨0, 0⟩
  pendingRevocationToken := none
  leases := []
  tasks := fun _ => none
  calls := fun _ => none
  server := fun name => if name = 0 then some ⟨0, false⟩ else none

theorem initial_sampleStart : Initial sampleStart := by
  refine ⟨rfl, rfl, rfl, rfl, fun _ => rfl, fun _ => rfl, ?_⟩
  rintro token (hact | hpend)
  · obtain rfl := Option.some.inj hact
    exact ⟨⟨0, false⟩, rfl, Nat.le_refl _⟩
  · cases hpend

theorem kept_sampleStart : Kept sampleStart := by
  refine ⟨Or.inr (Or.inl rfl), ?_⟩
  intro token hact _
  obtain rfl := Option.some.inj hact
  rfl

/-- The session is rotated under an operation, which then takes the new token. -/
theorem client_not_locked_out_sample :
    ∃ trace final, Run Step sampleStart trace final ∧ (∀ token, sends token trace ≤ 1) ∧
      ∃ outcome, final.calls 0 = some (.ended (some .superseded) outcome) ∧
        outcome = .returned := by
  have hfirst := (Run.single (Step.performAuthenticated (s := sampleStart) (i := 0) (j := 0)
    true rfl rfl)).snoc (Step.send (j := 0) rfl rfl)
  have hsigned := ((hfirst.snoc (Step.rotate (j := 0) rfl rfl)).snoc
    (Step.settle (j := 0) rfl rfl)).snoc (Step.resumeRotation (i := 0) rfl rfl rfl)
  have hsecond := ((hsigned.snoc (Step.currentAccessToken (i := 1) (j := 1) false rfl rfl)).snoc
    (Step.send (j := 1) rfl rfl)).snoc (Step.rotate (j := 1) rfl rfl)
  have hrefused := (hsecond.snoc (Step.settle (j := 1) rfl rfl)).snoc (Step.read (i := 0) rfl)
  have hretried := (hrefused.snoc (Step.resumeOperation (i := 0) (j := 2) rfl rfl)).snoc
    (Step.resumeRotation (i := 0) rfl rfl rfl)
  have hrun := (hretried.snoc (Step.read (i := 0) rfl)).snoc
    (Step.resumeOperation (i := 0) (j := 2) rfl rfl)
  have hall := client_not_locked_out initial_sampleStart hrun
  refine ⟨_, _, hrun, hall.1, .returned, rfl, hall.2 kept_sampleStart ?_ ?_ 0 .returned rfl⟩
  · intro e he
    simp only [List.cons_append, List.nil_append, List.mem_cons, List.not_mem_nil, or_false] at he
    rcases he with rfl | rfl | rfl | rfl | rfl | rfl | rfl | rfl | rfl | rfl | rfl | rfl | rfl | rfl
    all_goals exact ⟨nofun, by rintro (hlabel | ⟨i, hlabel⟩) <;> cases hlabel⟩
  · intro e he j refreshToken hlabel i phase token hcall hretries
    simp only [List.cons_append, List.nil_append, List.mem_cons, List.not_mem_nil, or_false] at he
    rcases he with rfl | rfl | rfl | rfl | rfl | rfl | rfl | rfl | rfl | rfl | rfl | rfl | rfl | rfl
    all_goals cases hlabel
    -- the two rotations find no second operation
    all_goals rcases i with _ | _ | i <;> cases hcall
    all_goals exact hretries.elim

/-- Both operations are refused with the same token.  The second refusal comes
after the first has got its new token, and rotates the session again. -/
theorem retry_refused :
    ∃ trace final, Initial sampleStart ∧ Kept sampleStart ∧ Run Step sampleStart trace final ∧
      (∀ e ∈ trace, Answered e ∧ StaysSignedIn e) ∧
      final.calls 0 = some (.ended (some .superseded) .unauthorized) := by
  have hfirst := ((Run.single (Step.performAuthenticated (s := sampleStart) (i := 0) (j := 0)
    true rfl rfl)).snoc (Step.performAuthenticated (i := 1) (j := 1) true rfl rfl)).snoc
    (Step.send (j := 0) rfl rfl)
  have hsigned := (((hfirst.snoc (Step.rotate (j := 0) rfl rfl)).snoc
    (Step.settle (j := 0) rfl rfl)).snoc (Step.resumeRotation (i := 0) rfl rfl rfl)).snoc
    (Step.resumeRotation (i := 1) rfl rfl rfl)
  have hsecond := (((hsigned.snoc (Step.currentAccessToken (i := 2) (j := 1) false rfl rfl)).snoc
    (Step.send (j := 1) rfl rfl)).snoc (Step.rotate (j := 1) rfl rfl)).snoc
    (Step.settle (j := 1) rfl rfl)
  have hrefused := ((hsecond.snoc (Step.resumeRotation (i := 2) rfl rfl rfl)).snoc
    (Step.read (i := 0) rfl)).snoc (Step.read (i := 1) rfl)
  have hthird := (((hrefused.snoc (Step.resumeOperation (i := 0) (j := 2) rfl rfl)).snoc
    (Step.send (j := 2) rfl rfl)).snoc (Step.rotate (j := 2) rfl rfl)).snoc
    (Step.settle (j := 2) rfl rfl)
  have hretried := hthird.snoc (Step.resumeRotation (i := 0) rfl rfl rfl)
  have hfourth := ((hretried.snoc (Step.resumeOperation (i := 1) (j := 3) rfl rfl)).snoc
    (Step.send (j := 3) rfl rfl)).snoc (Step.rotate (j := 3) rfl rfl)
  have hrun := (hfourth.snoc (Step.read (i := 0) rfl)).snoc
    (Step.resumeOperation (i := 0) (j := 4) rfl rfl)
  refine ⟨_, _, initial_sampleStart, kept_sampleStart, hrun, ?_, rfl⟩
  intro e he
  simp only [List.cons_append, List.nil_append, List.mem_cons, List.not_mem_nil, or_false] at he
  rcases he with rfl | rfl | rfl | rfl | rfl | rfl | rfl | rfl | rfl | rfl | rfl | rfl | rfl |
    rfl | rfl | rfl | rfl | rfl | rfl | rfl | rfl | rfl | rfl | rfl
  all_goals exact ⟨nofun, by rintro (hlabel | ⟨i, hlabel⟩) <;> cases hlabel⟩

end TamForge.Auth.Client
