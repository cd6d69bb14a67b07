import TamForge.Auth.NativeClient

/-!
# No refresh token is sent twice

The stored refresh token belongs to at most one refresh task, which is the task
that every rotation joins; a task that ended has had its token replaced or put
aside.  So a token is taken into a task once, whatever replies are lost.
-/

namespace TamForge.Auth.Client

open ProofSupport

variable {s t : State} {i j : Nat} {event : Event} {task : RefreshTask} {token : Token}

/-! ## The server -/

def Issued (server : Server) (token : Token) : Prop :=
  ∃ session, server token.session = some session ∧ token.number ≤ session.latest

def Advances (server after : Server) : Prop :=
  ∀ name session, server name = some session → ∃ later, after name = some later ∧
    session.latest ≤ later.latest ∧ (session.revoked = true → later.revoked = true)

theorem Advances.refl (server : Server) : Advances server server :=
  fun _ sess hsess => ⟨sess, hsess, Nat.le_refl _, id⟩

variable {after : Server}

theorem Issued.advances {server : Server} (h : Issued server token)
    (hadv : Advances server after) : Issued after token := by
  obtain ⟨sess, hsess, hle⟩ := h
  obtain ⟨later, hlat, hlast, -⟩ := hadv _ _ hsess
  exact ⟨later, hlat, by omega⟩

theorem revoke_advances (server : Server) (token : Token) :
    Advances server (server.revoke token) := by
  intro name sess hsess
  by_cases hname : name = token.session
  · subst hname
    refine ⟨{ sess with revoked := true }, ?_, Nat.le_refl _, fun _ => rfl⟩
    simp only [Server.revoke, hsess, Function.update_self]
  · refine ⟨sess, ?_, Nat.le_refl _, id⟩
    unfold Server.revoke
    cases server token.session with
    | none => exact hsess
    | some found => exact (Function.update_of_ne hname ..).trans hsess

theorem rotate_cases (server : Server) (token : Token) :
    ((server.rotate token).1 = none ∧ Advances server (server.rotate token).2) ∨
      (server token.session = some ⟨token.number, false⟩ ∧
        server.rotate token = (some ⟨token.next, token.next⟩,
          Function.update server token.session (some ⟨token.number + 1, false⟩))) := by
  unfold Server.rotate
  split
  · exact Or.inl ⟨rfl, Advances.refl server⟩
  · rename_i session hsess
    split
    · exact Or.inl ⟨rfl, revoke_advances server token⟩
    · split
      · exact Or.inl ⟨rfl, Advances.refl server⟩
      · rename_i hlive
        obtain ⟨latest, revoked⟩ := session
        simp only [not_or, Bool.not_eq_true, ne_eq, not_not] at hlive
        obtain ⟨rfl, rfl⟩ := hlive
        exact Or.inr ⟨hsess, rfl⟩

theorem update_advances {server : Server}
    (hlive : server token.session = some ⟨token.number, false⟩) :
    Advances server
      (Function.update server token.session (some ⟨token.number + 1, false⟩)) := by
  intro name sess hsess
  by_cases hname : name = token.session
  · subst hname
    have hsame := Option.some.inj (hsess.symm.trans hlive)
    subst hsame
    exact ⟨_, Function.update_self .., Nat.le_succ _, id⟩
  · exact ⟨sess, by rwa [Function.update_of_ne hname], Nat.le_refl _, id⟩

theorem rotate_advances (server : Server) (token : Token) :
    Advances server (server.rotate token).2 := by
  rcases rotate_cases server token with ⟨-, hadv⟩ | ⟨hlive, hrotate⟩
  · exact hadv
  · rw [hrotate]
    exact update_advances hlive

theorem next_injective {other : Token} (h : token.next = other.next) : token = other := by
  obtain ⟨sess, number⟩ := token
  obtain ⟨sess', number'⟩ := other
  simpa [Token.next] using h

/-! ## One task for the stored token -/

def TaskPhase.isOpen : TaskPhase → Bool
  | .created | .sent | .answered _ => true
  | .revoking _ | .finished _ => false

def LoginPhase.Stored (active pending : Option Token) : LoginPhase → Prop
  | .revoking token wasActive | .revoked token wasActive =>
    (pending = none ∨ pending = some token) ∧ (wasActive = true ∨ pending = none → active = none)
  | .browsing | .exchanging | .exchanged _ => active = none ∧ pending = none
  | .discarding _ => False

/-- The store does not hold an active and a pending credential at once. -/
def Apart (s : State) : Prop :=
  s.activeRefreshToken = none ∨ s.pendingRevocationToken = none

def LoginAlone (s : State) : Prop :=
  ∀ login, s.login = some login → login.generation = s.sessionGeneration →
    (∀ j task, s.tasks j = some task → task.generation ≠ s.sessionGeneration) ∧
      login.phase.Stored s.activeRefreshToken s.pendingRevocationToken

def CallPhase.creates (generation j : Nat) (phase : CallPhase) : Prop :=
  ∃ purpose, phase = .awaiting j (some generation) purpose

/-- The refresh tasks and who holds which token. -/
structure SingleFlight (s : State) : Prop where
  tracked : ∀ j, s.refreshTask = some j →
    ∃ task, s.tasks j = some task ∧ task.generation = s.sessionGeneration
  creators : ∀ i j phase, s.calls i = some phase → phase.creates s.sessionGeneration j →
    s.refreshTask = some j
  creator_unique : ∀ i i' j j' phase phase', s.calls i = some phase → s.calls i' = some phase' →
    phase.creates s.sessionGeneration j → phase'.creates s.sessionGeneration j' → i = i'
  creators_le : ∀ i j generation phase, s.calls i = some phase → phase.creates generation j →
    generation ≤ s.sessionGeneration
  tasks_le : ∀ j task, s.tasks j = some task → task.generation ≤ s.sessionGeneration
  login_le : ∀ login, s.login = some login → login.generation ≤ s.sessionGeneration
  stored : ∀ j task, s.tasks j = some task → s.activeRefreshToken = some task.refreshToken →
    s.refreshTask = some j ∧ task.phase.isOpen = true
  distinct : ∀ j k task other, s.tasks j = some task → s.tasks k = some other →
    task.refreshToken = other.refreshToken → j = k
  answered : ∀ j task pair, s.tasks j = some task → task.phase = .answered (some pair) →
    pair = ⟨task.refreshToken.next, task.refreshToken.next⟩ ∧
      Issued s.server task.refreshToken.next ∧
      s.activeRefreshToken ≠ some task.refreshToken.next ∧
      ∀ k other, s.tasks k = some other → other.refreshToken ≠ task.refreshToken.next
  issued_tasks : ∀ j task, s.tasks j = some task → Issued s.server task.refreshToken
  issued_active : ∀ token, s.activeRefreshToken = some token → Issued s.server token
  exclusive : s.activeRefreshToken ≠ none → s.pendingRevocationToken ≠ none →
    (∀ j, s.tasks j = none) ∧ s.leases = [] ∧
      ∀ i phase, s.calls i = some phase → ∃ refused outcome, phase = .ended refused outcome
  alone : LoginAlone s
  exchanged : ∀ generation pair, s.login = some ⟨generation, .exchanged pair⟩ →
    Issued s.server pair.refreshToken ∧ pair.refreshToken.number = 0 ∧
      pair.accessToken = pair.refreshToken ∧
      (∀ token, s.activeRefreshToken = some token → token.session ≠ pair.refreshToken.session) ∧
      ∀ j task, s.tasks j = some task → task.refreshToken.session ≠ pair.refreshToken.session

theorem singleFlight_initial (h : Initial s) : SingleFlight s := by
  obtain ⟨hacc, hrefr, hlogin, hleases, htasks, hcalls, hiss⟩ := h
  constructor
  case exclusive => exact fun _ _ => ⟨htasks, hleases, by simp [hcalls]⟩
  case issued_active => exact fun token htok => hiss token (Or.inl htok)
  case alone =>
    intro login h
    simp [hlogin] at h
  all_goals simp [hrefr, hlogin, htasks, hcalls]

variable {k : Nat}

theorem setTask_cases {found : RefreshTask} (h : (s.setTask j task).tasks k = some found) :
    (k = j ∧ found = task) ∨ (k ≠ j ∧ s.tasks k = some found) := by
  by_cases hk : k = j
  · subst hk
    rw [State.setTask_self] at h
    exact Or.inl ⟨rfl, (Option.some.inj h).symm⟩
  · rw [State.setTask_ne _ _ hk] at h
    exact Or.inr ⟨hk, h⟩

theorem setCall_cases {phase found : CallPhase} (h : (s.setCall i phase).calls k = some found) :
    (k = i ∧ found = phase) ∨ (k ≠ i ∧ s.calls k = some found) := by
  by_cases hk : k = i
  · subst hk
    rw [State.setCall_self] at h
    exact Or.inl ⟨rfl, (Option.some.inj h).symm⟩
  · rw [State.setCall_ne _ _ hk] at h
    exact Or.inr ⟨hk, h⟩

namespace SingleFlight

theorem server (h : SingleFlight s) (hadv : Advances s.server after) :
    SingleFlight { s with server := after } := by
  refine { h with answered := ?_, issued_tasks := ?_, issued_active := ?_, exchanged := ?_ }
  · intro j task pair htask hph
    obtain ⟨hpair, hnext, hrest⟩ := h.answered j task pair htask hph
    exact ⟨hpair, hnext.advances hadv, hrest⟩
  · exact fun j task htask => (h.issued_tasks j task htask).advances hadv
  · exact fun token htok => (h.issued_active token htok).advances hadv
  · intro generation pair hlogin
    obtain ⟨hpair, hrest⟩ := h.exchanged generation pair hlogin
    exact ⟨hpair.advances hadv, hrest⟩

theorem cache (h : SingleFlight s) (access : Option Token) :
    SingleFlight { s with accessToken := access } := { h with }

theorem setCall {phase : CallPhase} (h : SingleFlight s)
    (hph : ∀ generation j, ¬phase.creates generation j)
    (hapart : Apart s ∨ ∃ refused out, phase = .ended refused out) :
    SingleFlight (s.setCall i phase) := by
  have hcall : ∀ {k other generation j}, (s.setCall i phase).calls k = some other →
      other.creates generation j → s.calls k = some other := by
    intro k other generation j ho hcrt
    rcases setCall_cases ho with ⟨-, rfl⟩ | ⟨-, ho⟩
    · exact absurd hcrt (hph _ _)
    · exact ho
  refine { h with creators := ?_, creator_unique := ?_, creators_le := ?_, exclusive := ?_ }
  · exact fun k j other ho hcrt => h.creators k j other (hcall ho hcrt) hcrt
  · exact fun k k' j j' other other' ho ho' hcrt hcrt' => h.creator_unique k k' j j'
      other other' (hcall ho hcrt) (hcall ho' hcrt') hcrt hcrt'
  · exact fun k j generation other ho hcrt =>
      h.creators_le k j generation other (hcall ho hcrt) hcrt
  · intro hact hpend
    obtain ⟨htasks, hleases, hcalls⟩ := h.exclusive hact hpend
    refine ⟨htasks, hleases, ?_⟩
    intro k other ho
    rcases setCall_cases ho with ⟨-, rfl⟩ | ⟨-, ho⟩
    · rcases hapart with happart | hend
      · rcases happart with hnone | hnone
        · exact absurd hnone hact
        · exact absurd hnone hpend
      · exact hend
    · exact hcalls k other ho

theorem lease (h : SingleFlight s) (generation : Nat) (hapart : Apart s) :
    SingleFlight { s with leases := generation :: s.leases } := by
  refine { h with exclusive := ?_ }
  intro hact hpend
  rcases hapart with hnone | hnone
  · exact absurd hnone hact
  · exact absurd hnone hpend

theorem setTask_kept (htask : s.tasks j = some task) {phase : TaskPhase} {other : RefreshTask}
    (ho : (s.setTask j { task with phase := phase }).tasks k = some other) :
    ∃ before, s.tasks k = some before ∧ before.refreshToken = other.refreshToken ∧
      before.generation = other.generation ∧
      ((k = j ∧ before = task ∧ other.phase = phase) ∨ before = other) := by
  rcases setTask_cases ho with ⟨rfl, rfl⟩ | ⟨-, ho⟩
  · exact ⟨task, htask, rfl, rfl, Or.inl ⟨rfl, rfl, rfl⟩⟩
  · exact ⟨other, ho, rfl, rfl, Or.inr rfl⟩

theorem setTask {phase : TaskPhase} (h : SingleFlight s) (htask : s.tasks j = some task)
    (hopen : phase.isOpen = true ∨ s.activeRefreshToken ≠ some task.refreshToken)
    (hans : ∀ pair, phase = .answered (some pair) →
      pair = ⟨task.refreshToken.next, task.refreshToken.next⟩ ∧
        Issued s.server task.refreshToken.next ∧
        s.activeRefreshToken ≠ some task.refreshToken.next ∧
        ∀ k other, s.tasks k = some other → other.refreshToken ≠ task.refreshToken.next) :
    SingleFlight (s.setTask j { task with phase := phase }) := by
  constructor
  case tracked =>
    intro k hrefr
    obtain ⟨tracked, htracked, hgen⟩ := h.tracked k hrefr
    by_cases hk : k = j
    · subst hk
      obtain rfl := Option.some.inj (htracked.symm.trans htask)
      exact ⟨_, Function.update_self .., hgen⟩
    · exact ⟨tracked, by rwa [State.setTask_ne _ _ hk], hgen⟩
  case creators => exact h.creators
  case creator_unique => exact h.creator_unique
  case creators_le => exact h.creators_le
  case tasks_le =>
    intro k other ho
    obtain ⟨before, hb, -, hgen, -⟩ := setTask_kept htask ho
    rw [← hgen]
    exact h.tasks_le k before hb
  case login_le => exact h.login_le
  case stored =>
    intro k other ho hact
    obtain ⟨before, hb, htok, -, hph⟩ := setTask_kept htask ho
    obtain ⟨hrefr, hbeforeOpen⟩ := h.stored k before hb (by rw [htok]; exact hact)
    refine ⟨hrefr, ?_⟩
    rcases hph with ⟨-, rfl, hph⟩ | rfl
    · rw [hph]
      exact hopen.resolve_right fun hne => hne (by rw [htok]; exact hact)
    · exact hbeforeOpen
  case distinct =>
    intro k k' other other' ho ho' hsame
    obtain ⟨before, hb, htok, -⟩ := setTask_kept htask ho
    obtain ⟨before', hb', htok', -⟩ := setTask_kept htask ho'
    exact h.distinct k k' before before' hb hb' (by rw [htok, htok', hsame])
  case answered =>
    intro k other pair ho hph
    obtain ⟨before, hb, htok, -, hcases⟩ := setTask_kept htask ho
    have hpair : pair = ⟨before.refreshToken.next, before.refreshToken.next⟩ ∧
        Issued s.server before.refreshToken.next ∧
        s.activeRefreshToken ≠ some before.refreshToken.next ∧
        ∀ k other, s.tasks k = some other → other.refreshToken ≠ before.refreshToken.next := by
      rcases hcases with ⟨-, rfl, hnew⟩ | rfl
      · exact hans pair (hnew.symm.trans hph)
      · exact h.answered k before pair hb hph
    rw [htok] at hpair
    obtain ⟨hpair, hiss, hact, hos⟩ := hpair
    refine ⟨hpair, hiss, hact, ?_⟩
    intro k' other' ho'
    obtain ⟨before', hb', htok', -⟩ := setTask_kept htask ho'
    rw [← htok']
    exact hos k' before' hb'
  case issued_tasks =>
    intro k other ho
    obtain ⟨before, hb, htok, -⟩ := setTask_kept htask ho
    rw [← htok]
    exact h.issued_tasks k before hb
  case issued_active => exact h.issued_active
  case exclusive =>
    intro hact hpend
    have hnone := (h.exclusive hact hpend).1 j
    rw [htask] at hnone
    cases hnone
  case alone =>
    intro login hlogin hgen
    obtain ⟨hos, hsto⟩ := h.alone login hlogin hgen
    refine ⟨?_, hsto⟩
    intro k other ho
    obtain ⟨before, hb, -, hsame, -⟩ := setTask_kept htask ho
    rw [← hsame]
    exact hos k before hb
  case exchanged =>
    intro generation pair hlogin
    obtain ⟨hiss, hzero, hsame, hact, hos⟩ := h.exchanged generation pair hlogin
    refine ⟨hiss, hzero, hsame, hact, ?_⟩
    intro k other ho
    obtain ⟨before, hb, htok, -⟩ := setTask_kept htask ho
    rw [← htok]
    exact hos k before hb

theorem not_logging_in (h : SingleFlight s) (hact : s.activeRefreshToken = some token)
    (hpend : s.pendingRevocationToken = none) {login : Login} (hlogin : s.login = some login) :
    login.generation ≠ s.sessionGeneration := by
  intro hgen
  obtain ⟨-, hsto⟩ := h.alone login hlogin hgen
  have hnone : s.activeRefreshToken = none := by
    obtain ⟨generation, phase⟩ := login
    cases phase with
    | discarding token => exact hsto.elim
    | revoking _ wasActive | revoked _ wasActive => exact hsto.2 (Or.inr hpend)
    | browsing | exchanging | exchanged => exact hsto.1
  rw [hact] at hnone
  cases hnone

theorem create (h : SingleFlight s) (hnone : s.refreshTask = none)
    (hact : s.activeRefreshToken = some token) (hpend : s.pendingRevocationToken = none)
    (hnew : s.tasks j = none) (purpose : Purpose) :
    SingleFlight (({ s with refreshTask := some j }.setTask j
      ⟨token, s.sessionGeneration, .created⟩).setCall i
        (.awaiting j (some s.sessionGeneration) purpose)) := by
  have htasks : ∀ {k : Nat} {other : RefreshTask}, (Function.update s.tasks j
      (some ⟨token, s.sessionGeneration, .created⟩)) k = some other →
      (k = j ∧ other = ⟨token, s.sessionGeneration, .created⟩) ∨ s.tasks k = some other := by
    intro k other ho
    exact (setTask_cases ho).imp id And.right
  have hcalls : ∀ {k g k' : Nat} {phase : CallPhase}, (Function.update s.calls i
      (some (.awaiting j (some s.sessionGeneration) purpose))) k = some phase →
      phase.creates g k' → (k = i ∧ g = s.sessionGeneration ∧ k' = j) ∨ s.calls k = some phase := by
    intro k g k' phase hph hcrt
    rcases setCall_cases hph with ⟨rfl, rfl⟩ | ⟨-, hph⟩
    · obtain ⟨purpose', hsame⟩ := hcrt
      cases hsame
      exact Or.inl ⟨rfl, rfl, rfl⟩
    · exact Or.inr hph
  have hunstored : ∀ k other, s.tasks k = some other → other.refreshToken ≠ token := by
    rintro k other ho rfl
    have hrefr := (h.stored k other ho hact).1
    rw [hnone] at hrefr
    cases hrefr
  have huncreated : ∀ k k' phase, s.calls k = some phase →
      ¬phase.creates s.sessionGeneration k' := by
    intro k k' phase hph hcrt
    have hrefr := h.creators k k' phase hph hcrt
    rw [hnone] at hrefr
    cases hrefr
  constructor
  case tracked =>
    rintro k ⟨⟩
    exact ⟨_, Function.update_self .., rfl⟩
  case creators =>
    intro k k' phase hph hcrt
    rcases hcalls hph hcrt with ⟨-, -, rfl⟩ | hph
    · rfl
    · exact absurd hcrt (huncreated k k' phase hph)
  case creator_unique =>
    intro k k' l l' phase phase' hph hph' hcrt hcrt'
    rcases hcalls hph hcrt with ⟨rfl, -⟩ | hph
    · rcases hcalls hph' hcrt' with ⟨rfl, -⟩ | hph'
      · rfl
      · exact absurd hcrt' (huncreated k' l' phase' hph')
    · exact absurd hcrt (huncreated k l phase hph)
  case creators_le =>
    intro k k' g phase hph hcrt
    rcases hcalls hph hcrt with ⟨-, rfl, -⟩ | hph
    · exact Nat.le_refl _
    · exact h.creators_le k k' g phase hph hcrt
  case tasks_le =>
    intro k other ho
    rcases htasks ho with ⟨-, rfl⟩ | ho
    · exact Nat.le_refl _
    · exact h.tasks_le k other ho
  case login_le => exact h.login_le
  case stored =>
    intro k other ho hsto
    rcases htasks ho with ⟨rfl, rfl⟩ | ho
    · exact ⟨rfl, rfl⟩
    · have hsame := Option.some.inj (hact.symm.trans hsto)
      exact absurd hsame.symm (hunstored k other ho)
  case distinct =>
    intro k k' other other' ho ho' hsame
    rcases htasks ho with ⟨rfl, rfl⟩ | hold
    · rcases htasks ho' with ⟨rfl, -⟩ | hold'
      · rfl
      · exact absurd hsame.symm (hunstored k' other' hold')
    · rcases htasks ho' with ⟨rfl, rfl⟩ | hold'
      · exact absurd hsame (hunstored k other hold)
      · exact h.distinct k k' other other' hold hold' hsame
  case answered =>
    intro k other pair ho hph
    rcases htasks ho with ⟨rfl, rfl⟩ | ho
    · cases hph
    · obtain ⟨hpair, hiss, hneAct, hos⟩ := h.answered k other pair ho hph
      refine ⟨hpair, hiss, hneAct, ?_⟩
      intro k' other' ho'
      rcases htasks ho' with ⟨rfl, rfl⟩ | ho'
      · rintro rfl
        exact hneAct hact
      · exact hos k' other' ho'
  case issued_tasks =>
    intro k other ho
    rcases htasks ho with ⟨rfl, rfl⟩ | ho
    · exact h.issued_active _ hact
    · exact h.issued_tasks k other ho
  case issued_active => exact h.issued_active
  case exclusive => exact fun _ hne => absurd hpend hne
  case alone =>
    intro login hlogin hgen
    exact absurd hgen (h.not_logging_in hact hpend hlogin)
  case exchanged =>
    intro generation pair hlogin
    obtain ⟨hiss, hzero, hsame, hneAct, hos⟩ := h.exchanged generation pair hlogin
    refine ⟨hiss, hzero, hsame, hneAct, ?_⟩
    intro k other ho
    rcases htasks ho with ⟨rfl, rfl⟩ | ho
    · exact hneAct _ hact
    · exact hos k other ho

variable {purpose : Purpose}

theorem drop {phase : CallPhase} (h : SingleFlight s)
    (hcall : s.calls i = some (.awaiting j (some s.sessionGeneration) purpose))
    (htask : s.tasks j = some task) (hclos : task.phase.isOpen = false)
    (hph : ∀ generation k, ¬phase.creates generation k) :
    SingleFlight ({ s with refreshTask := none }.setCall i phase) := by
  have hrefr := h.creators i j _ hcall ⟨purpose, rfl⟩
  have hcalls : ∀ {k g k' : Nat} {other : CallPhase}, (Function.update s.calls i
      (some phase)) k = some other → other.creates g k' → k ≠ i ∧ s.calls k = some other := by
    intro k g k' other ho hcrt
    rcases setCall_cases ho with ⟨-, rfl⟩ | hkept
    · exact absurd hcrt (hph g k')
    · exact hkept
  have halone : ∀ {k k' : Nat} {other : CallPhase}, k ≠ i → s.calls k = some other →
      ¬other.creates s.sessionGeneration k' := fun hk ho hcrt =>
    hk (h.creator_unique _ _ _ _ _ _ ho hcall hcrt ⟨purpose, rfl⟩)
  refine { h with
    tracked := ?_, creators := ?_, creator_unique := ?_, creators_le := ?_, stored := ?_,
    exclusive := ?_ }
  · rintro k ⟨⟩
  · intro k k' other ho hcrt
    obtain ⟨hk, ho⟩ := hcalls ho hcrt
    exact absurd hcrt (halone hk ho)
  · intro k k' l l' other other' ho ho' hcrt hcrt'
    obtain ⟨hk, ho⟩ := hcalls ho hcrt
    exact absurd hcrt (halone hk ho)
  · intro k k' g other ho hcrt
    exact h.creators_le k k' g other (hcalls ho hcrt).2 hcrt
  · intro k other ho hact
    obtain ⟨hrefr', hopen⟩ := h.stored k other ho hact
    obtain rfl := Option.some.inj (hrefr.symm.trans hrefr')
    obtain rfl := Option.some.inj (htask.symm.trans ho)
    rw [hclos] at hopen
    cases hopen
  · intro hact hpend
    have hnone := (h.exclusive hact hpend).1 j
    rw [htask] at hnone
    cases hnone

theorem shrink {active pending : Option Token} {login : Option Login} (h : SingleFlight s)
    (hact : active = none ∨ active = s.activeRefreshToken)
    (hboth : active ≠ none → pending ≠ none →
      s.activeRefreshToken ≠ none ∧ s.pendingRevocationToken ≠ none)
    (hle : ∀ ent, login = some ent → ent.generation ≤ s.sessionGeneration)
    (halone : ∀ ent, login = some ent → ent.generation = s.sessionGeneration →
      (∀ j task, s.tasks j = some task → task.generation ≠ s.sessionGeneration) ∧
        ent.phase.Stored active pending)
    (hexch : ∀ generation pair, login = some ⟨generation, .exchanged pair⟩ →
      Issued s.server pair.refreshToken ∧ pair.refreshToken.number = 0 ∧
        pair.accessToken = pair.refreshToken ∧
        (∀ token, s.activeRefreshToken = some token →
          token.session ≠ pair.refreshToken.session) ∧
        ∀ j task, s.tasks j = some task →
          task.refreshToken.session ≠ pair.refreshToken.session) :
    SingleFlight { s with
      activeRefreshToken := active, pendingRevocationToken := pending, login := login } := by
  have hkept : ∀ {token}, active = some token → s.activeRefreshToken = some token := by
    intro token htok
    rcases hact with rfl | rfl
    · cases htok
    · exact htok
  refine { h with
    login_le := hle, stored := ?_, answered := ?_, issued_active := ?_, exclusive := ?_,
    alone := halone, exchanged := ?_ }
  · exact fun k other ho hsto => h.stored k other ho (hkept hsto)
  · intro k other pair ho hph
    obtain ⟨hpair, hiss, hneAct, hos⟩ := h.answered k other pair ho hph
    exact ⟨hpair, hiss, fun hsto => hneAct (hkept hsto), hos⟩
  · exact fun token htok => h.issued_active token (hkept htok)
  · intro hsome hpend
    obtain ⟨hact', hpend'⟩ := hboth hsome hpend
    exact h.exclusive hact' hpend'
  · intro generation pair hlogin
    obtain ⟨hiss, hzero, hsame, hneAct, hos⟩ := hexch generation pair hlogin
    exact ⟨hiss, hzero, hsame, fun token htok => hneAct token (hkept htok), hos⟩

/-- The session is invalidated, and its credential has left the store unless
there is no task that could have taken it. -/
theorem renew {active pending : Option Token} {login : Option Login} (h : SingleFlight s)
    (hact : active = none ∨ active = s.activeRefreshToken ∧ ∀ j, s.tasks j = none)
    (hboth : active ≠ none → pending ≠ none →
      s.activeRefreshToken ≠ none ∧ s.pendingRevocationToken ≠ none)
    (hlogin : login = s.login ∨ login = none ∨
      ∃ phase, login = some ⟨s.sessionGeneration + 1, phase⟩ ∧
        phase.Stored active pending ∧ ∀ pair, phase ≠ .exchanged pair) :
    SingleFlight { s.invalidateSession with
      activeRefreshToken := active, pendingRevocationToken := pending, login := login } := by
  have hkept : ∀ {token}, active = some token →
      s.activeRefreshToken = some token ∧ ∀ j, s.tasks j = none := by
    intro token htok
    rcases hact with rfl | ⟨rfl, htasks⟩
    · cases htok
    · exact ⟨htok, htasks⟩
  have hold : ∀ ent, s.login = some ent → ent.generation ≤ s.sessionGeneration :=
    h.login_le
  constructor
  case tracked => rintro k ⟨⟩
  case creators =>
    intro k k' phase hph hcrt
    have hle := h.creators_le k k' _ phase hph hcrt
    exact absurd hle (Nat.not_succ_le_self _)
  case creator_unique =>
    intro k k' l l' phase phase' hph hph' hcrt hcrt'
    have hle := h.creators_le k l _ phase hph hcrt
    exact absurd hle (Nat.not_succ_le_self _)
  case creators_le =>
    exact fun k k' g phase hph hcrt =>
      Nat.le_succ_of_le (h.creators_le k k' g phase hph hcrt)
  case tasks_le => exact fun k other ho => Nat.le_succ_of_le (h.tasks_le k other ho)
  case login_le =>
    intro ent hent
    rcases hlogin with rfl | rfl | ⟨phase, rfl, -⟩
    · exact Nat.le_succ_of_le (hold ent hent)
    · cases hent
    · cases hent
      exact Nat.le_refl _
  case stored =>
    intro k other ho hsto
    have hnone := (hkept hsto).2 k
    rw [show s.tasks k = some other from ho] at hnone
    cases hnone
  case distinct => exact h.distinct
  case answered =>
    intro k other pair ho hph
    obtain ⟨hpair, hiss, hneAct, hos⟩ := h.answered k other pair ho hph
    exact ⟨hpair, hiss, fun hsto => hneAct (hkept hsto).1, hos⟩
  case issued_tasks => exact h.issued_tasks
  case issued_active => exact fun token htok => h.issued_active token (hkept htok).1
  case exclusive =>
    intro hsome hpend
    obtain ⟨hact', hpend'⟩ := hboth hsome hpend
    exact h.exclusive hact' hpend'
  case alone =>
    intro ent hent hgen
    rcases hlogin with rfl | rfl | ⟨phase, rfl, hsto, -⟩
    · have hle := hold ent hent
      rw [show ent.generation = s.sessionGeneration + 1 from hgen] at hle
      exact absurd hle (Nat.not_succ_le_self _)
    · cases hent
    · cases hent
      refine ⟨?_, hsto⟩
      intro k other ho hsame
      have hle := h.tasks_le k other ho
      rw [show other.generation = s.sessionGeneration + 1 from hsame] at hle
      exact absurd hle (Nat.not_succ_le_self _)
  case exchanged =>
    intro generation pair hent
    rcases hlogin with rfl | rfl | ⟨phase, rfl, -, hph⟩
    · obtain ⟨hiss, hzero, hsame, hneAct, hos⟩ := h.exchanged generation pair hent
      exact ⟨hiss, hzero, hsame, fun token htok => hneAct token (hkept htok).1, hos⟩
    · cases hent
    · cases hent
      exact absurd rfl (hph pair)

theorem store (h : SingleFlight s) (hiss : Issued s.server token)
    (hfree : ∀ j task, s.tasks j = some task → task.refreshToken ≠ token)
    (hnext : ∀ j task pair, s.tasks j = some task → task.phase = .answered (some pair) →
      task.refreshToken.next ≠ token)
    (hpend : s.pendingRevocationToken = none)
    (halone : ∀ login, s.login = some login → login.generation ≠ s.sessionGeneration)
    (hexch : ∀ generation pair, s.login = some ⟨generation, .exchanged pair⟩ →
      token.session ≠ pair.refreshToken.session) :
    SingleFlight { s with activeRefreshToken := some token } := by
  refine { h with
    stored := ?_, answered := ?_, issued_active := ?_, exclusive := ?_, alone := ?_,
    exchanged := ?_ }
  · rintro k other ho ⟨⟩
    exact absurd rfl (hfree k other ho)
  · intro k other pair ho hph
    obtain ⟨hpair, hissNext, -, hos⟩ := h.answered k other pair ho hph
    refine ⟨hpair, hissNext, ?_, hos⟩
    intro hsame
    exact hnext k other pair ho hph (Option.some.inj hsame).symm
  · rintro other ⟨⟩
    exact hiss
  · exact fun _ hne => absurd hpend hne
  · exact fun login hlogin hgen => absurd hgen (halone login hlogin)
  · intro generation pair hlogin
    obtain ⟨hissPair, hzero, hsame, -, hos⟩ := h.exchanged generation pair hlogin
    refine ⟨hissPair, hzero, hsame, ?_, hos⟩
    rintro other ⟨⟩
    exact hexch generation pair hlogin

theorem apart_of_task (h : SingleFlight s) (htask : s.tasks j = some task) : Apart s := by
  by_contra happart
  obtain ⟨hact, hpend⟩ := not_or.mp happart
  have hnone := (h.exclusive hact hpend).1 j
  rw [htask] at hnone
  cases hnone

theorem apart_of_call {phase : CallPhase} (h : SingleFlight s) (hcall : s.calls i = some phase)
    (hph : ∀ refused out, phase ≠ .ended refused out) : Apart s := by
  by_contra happart
  obtain ⟨hact, hpend⟩ := not_or.mp happart
  obtain ⟨refused, out, hend⟩ := (h.exclusive hact hpend).2.2 i phase hcall
  exact hph refused out hend

/-! ## The functions of the coordinator -/

theorem finish (h : SingleFlight s) (i : Nat) (refused : Option Refusal) (out : Outcome) :
    SingleFlight (s.setCall i (.ended refused out)) :=
  h.setCall (by rintro _ _ ⟨_, ⟨⟩⟩) (Or.inr ⟨_, _, rfl⟩)

theorem deliver (h : SingleFlight s) (happart : Apart s) (i : Nat) (token : Token)
    (purpose : Purpose) : SingleFlight (s.deliver i token purpose) := by
  cases purpose with
  | token => exact h.finish i none .returned
  | lease generation =>
    simp only [State.deliver]
    split
    · exact (h.lease generation happart).finish i none .returned
    · exact h.finish i none .failed
  | operation refused =>
    exact h.setCall (by rintro _ _ ⟨_, ⟨⟩⟩) (Or.inl happart)

theorem rotateAccessToken (h : SingleFlight s) (happart : Apart s) (hnew : s.tasks j = none)
    (i : Nat) (purpose : Purpose) : SingleFlight (s.rotateAccessToken i j purpose) := by
  unfold State.rotateAccessToken
  split
  · exact h.setCall (by rintro _ _ ⟨_, ⟨⟩⟩) (Or.inl happart)
  · rename_i hnone
    split
    · exact h.finish ..
    · rename_i token hact
      have hpend : s.pendingRevocationToken = none :=
        happart.resolve_left (by simp [hact])
      exact h.create hnone hact hpend hnew purpose

theorem currentAccessToken (h : SingleFlight s) (hnew : s.tasks j = none) (i : Nat)
    (fresh : Bool) (purpose : Purpose) : SingleFlight (s.currentAccessToken i j fresh purpose) := by
  unfold State.currentAccessToken
  split
  · exact h.finish ..
  · rename_i hpend
    have happart : Apart s := Or.inr (by simpa using hpend)
    split
    · exact h.deliver happart ..
    · exact h.rotateAccessToken happart hnew ..

variable {generation : Nat}

theorem refreshedAccessTokenAfterUnauthorized (h : SingleFlight s) (hnew : s.tasks j = none)
    (hlease : generation ∈ s.leases) (i : Nat) :
    SingleFlight (s.refreshedAccessTokenAfterUnauthorized i j generation) := by
  have happart : Apart s := by
    by_contra happart
    obtain ⟨hact, hpend⟩ := not_or.mp happart
    rw [(h.exclusive hact hpend).2.1] at hlease
    cases hlease
  unfold State.refreshedAccessTokenAfterUnauthorized
  split
  · exact (h.cache none).rotateAccessToken happart hnew ..
  · exact h.finish ..

theorem resumeOperation {refused answer : Option Refusal} (h : SingleFlight s)
    (hcall : s.calls i = some (.operated token refused answer)) (hnew : s.tasks j = none) :
    SingleFlight (s.resumeOperation i j refused answer) := by
  have happart := h.apart_of_call hcall (by rintro _ _ ⟨⟩)
  cases answer with
  | none =>
    cases refused <;> exact h.finish ..
  | some refusal =>
    cases refused with
    | none => exact (h.cache none).rotateAccessToken happart hnew ..
    | some first => exact h.finish ..

theorem resumeRotation {creator : Option Nat} {res : Option Token} (h : SingleFlight s)
    (hcall : s.calls i = some (.awaiting j creator purpose)) (htask : s.tasks j = some task)
    (hph : task.phase = .finished res) :
    SingleFlight (s.resumeRotation i creator purpose res) := by
  have happart := h.apart_of_task htask
  unfold State.resumeRotation
  by_cases hcreator : creator = some s.sessionGeneration
  · subst hcreator
    have hclos : task.phase.isOpen = false := by rw [hph]; rfl
    have hdrop : ∀ {phase : CallPhase}, (∀ generation k, ¬phase.creates generation k) →
        SingleFlight ({ s with refreshTask := none }.setCall i phase) :=
      h.drop hcall htask hclos
    simp only [if_true]
    cases res with
    | none => exact hdrop (by rintro _ _ ⟨_, ⟨⟩⟩)
    | some token =>
      cases purpose with
      | token => exact hdrop (by rintro _ _ ⟨_, ⟨⟩⟩)
      | operation refused => exact hdrop (by rintro _ _ ⟨_, ⟨⟩⟩)
      | lease generation =>
        simp only [State.deliver]
        split
        · exact (hdrop (by rintro _ _ ⟨_, ⟨⟩⟩)).lease generation happart
        · exact hdrop (by rintro _ _ ⟨_, ⟨⟩⟩)
  · simp only [if_neg hcreator]
    cases res with
    | none => exact h.finish ..
    | some token => exact h.deliver happart ..

theorem not_stored (h : SingleFlight s) (htask : s.tasks j = some task)
    (hstale : task.generation ≠ s.sessionGeneration) :
    s.activeRefreshToken ≠ some task.refreshToken := by
  intro hact
  obtain ⟨tracked, htracked, hgen⟩ := h.tracked j (h.stored j task htask hact).1
  obtain rfl := Option.some.inj (htracked.symm.trans htask)
  exact hstale hgen

theorem not_alone (h : SingleFlight s) (htask : s.tasks j = some task)
    (hcur : task.generation = s.sessionGeneration) {login : Login}
    (hlogin : s.login = some login) : login.generation ≠ s.sessionGeneration :=
  fun hgen => (h.alone login hlogin hgen).1 j task htask hcur

/-- The stored credential is given up for `pending`, with a task of its session running. -/
theorem giveUp (h : SingleFlight s) (htask : s.tasks j = some task)
    (hcur : task.generation = s.sessionGeneration) (pending : Option Token) :
    SingleFlight { s with
      activeRefreshToken := none, pendingRevocationToken := pending, login := s.login } :=
  h.shrink (Or.inl rfl) (fun hne => absurd rfl hne) h.login_le
    (fun _ hlogin hgen => absurd hgen (h.not_alone htask hcur hlogin))
    h.exchanged

theorem refreshAccessToken {reply : Option NativeTokenPair} (h : SingleFlight s)
    (htask : s.tasks j = some task)
    (hrep : ∀ pair, reply = some pair → task.phase = .answered (some pair)) :
    SingleFlight (s.refreshAccessToken j task reply) := by
  cases reply with
  | none =>
    simp only [State.refreshAccessToken]
    split
    · rename_i hcur
      have hgiven := h.giveUp htask hcur (some task.refreshToken)
      have hfin := @setTask _ j task (.finished none) hgiven htask (Or.inr nofun) nofun
      exact hfin.cache none
    · rename_i hstale
      exact h.setTask htask (Or.inr (h.not_stored htask hstale)) nofun
  | some pair =>
    obtain ⟨hpair, hiss, hneAct, hos⟩ :=
      h.answered j task pair htask (hrep pair rfl)
    simp only [State.refreshAccessToken]
    split
    · rename_i hstale
      exact h.setTask htask (Or.inr (h.not_stored htask hstale)) nofun
    · rename_i hgen
      have hcur := not_not.mp hgen
      split
      · rename_i hpend
        have hnone : s.activeRefreshToken = none :=
          (h.apart_of_task htask).resolve_right (Option.isSome_iff_ne_none.mp hpend)
        exact (h.cache none).setTask htask (Or.inr (by simp [hnone])) nofun
      · rename_i hsome
        have hpend : s.pendingRevocationToken = none := by simpa using hsome
        have hnil := h.giveUp htask hcur s.pendingRevocationToken
        have hfin := @setTask _ j task (.finished (some pair.accessToken)) hnil htask
          (Or.inr nofun) nofun
        have hsto : SingleFlight { ({ s with activeRefreshToken := none }.setTask j
            { task with phase := .finished (some pair.accessToken) }) with
            activeRefreshToken := some task.refreshToken.next } := by
          refine hfin.store hiss ?_ ?_ hpend ?_ ?_
          · intro k other ho
            obtain ⟨before, hb, htok, -⟩ := setTask_kept htask ho
            rw [← htok]
            exact hos k before hb
          · intro k other otherPair ho hph hsame
            obtain ⟨before, hb, htok, -, hcases⟩ := setTask_kept htask ho
            have hj := h.distinct k j before task hb htask
              (next_injective (by rw [htok]; exact hsame))
            subst hj
            rw [State.setTask_self] at ho
            cases ho
            cases hph
          · exact fun login hlogin => h.not_alone htask hcur hlogin
          · intro generation exchanged hlogin
            exact (h.exchanged generation exchanged hlogin).2.2.2.2 j task htask
        rw [hpair]
        exact (hpair ▸ hsto).cache (some task.refreshToken.next)

/-! ## Logging out and in -/

theorem logout (h : SingleFlight s) (i : Nat) : SingleFlight (s.logout i) := by
  simp only [State.logout]
  split
  · rename_i hact
    have hnone : s.activeRefreshToken = none := hact
    have hrenew : SingleFlight s.invalidateSession :=
      h.renew (Or.inl hnone) (fun hne => absurd hnone hne) (Or.inl rfl)
    split
    · exact hrenew.finish ..
    · exact hrenew.setCall (by rintro _ _ ⟨_, ⟨⟩⟩) (Or.inl (Or.inl hnone))
  · rename_i active hact
    have hsome : s.activeRefreshToken = some active := hact
    split
    · rename_i href
      have hpend : s.pendingRevocationToken ≠ none := by
        intro hnone
        simp [State.quarantine, State.invalidateSession, hnone] at href
      have htasks := (h.exclusive (by simp [hsome]) hpend).1
      have hrenew : SingleFlight s.invalidateSession :=
        h.renew (Or.inr ⟨rfl, htasks⟩) (fun hne hne' => ⟨hne, hne'⟩) (Or.inl rfl)
      exact hrenew.finish ..
    · rename_i quarantined hquar
      unfold State.quarantine at hquar
      split at hquar
      · cases hquar
        have hrenew : SingleFlight { s.invalidateSession with
            activeRefreshToken := none, pendingRevocationToken := some active } :=
          h.renew (Or.inl rfl) (fun hne => absurd rfl hne) (Or.inl rfl)
        exact hrenew.setCall (by rintro _ _ ⟨_, ⟨⟩⟩) (Or.inl (Or.inl rfl))
      · cases hquar

def entering : Option Token → LoginPhase
  | none => .browsing
  | some active => .revoking active true

theorem entering_stored (active : Option Token) : (entering active).Stored none active := by
  cases active with
  | none => exact ⟨rfl, rfl⟩
  | some active => exact ⟨Or.inr rfl, fun _ => rfl⟩

theorem entering_ne (active : Option Token) (pair : NativeTokenPair) :
    entering active ≠ .exchanged pair := by
  cases active <;> exact nofun

theorem loginActive_eq (hpend : s.pendingRevocationToken = none) (generation : Nat) :
    s.loginActive generation = { s with
      activeRefreshToken := none, pendingRevocationToken := s.activeRefreshToken,
      login := some ⟨generation, entering s.activeRefreshToken⟩ } := by
  obtain ⟨access, refresh, current, login, active, pending, leases, tasks, calls, server⟩ := s
  subst hpend
  cases active <;> rfl

theorem beginLogin (h : SingleFlight s) : SingleFlight s.beginLogin := by
  simp only [State.beginLogin]
  split
  · rename_i pending hpend
    have hsome : s.pendingRevocationToken = some pending := hpend
    have hkept : s.activeRefreshToken = none ∨
        s.activeRefreshToken = s.activeRefreshToken ∧ ∀ j, s.tasks j = none := by
      by_cases hact : s.activeRefreshToken = none
      · exact Or.inl hact
      · exact Or.inr ⟨rfl, (h.exclusive hact (by simp [hsome])).1⟩
    refine h.renew hkept (fun hne hne' => ⟨hne, hne'⟩) (Or.inr (Or.inr ⟨_, rfl, ?_, nofun⟩))
    exact ⟨Or.inr hsome, by simp [State.invalidateSession, hsome]⟩
  · rename_i hpend
    rw [loginActive_eq hpend]
    refine h.renew (Or.inl rfl) (fun hne => absurd rfl hne) (Or.inr (Or.inr ⟨_, rfl, ?_, ?_⟩))
    · exact entering_stored _
    · exact entering_ne _

theorem enter (h : SingleFlight s) {login ent : Login} (hlogin : s.login = some login)
    (hgen : ent.generation = login.generation)
    (hsto : ent.generation = s.sessionGeneration →
      ent.phase.Stored s.activeRefreshToken s.pendingRevocationToken)
    (hph : ∀ pair, ent.phase ≠ .exchanged pair) :
    SingleFlight (s.setLogin (some ent)) := by
  refine h.shrink (Or.inr rfl) (fun hne hne' => ⟨hne, hne'⟩) ?_ ?_ ?_
  · rintro _ ⟨⟩
    rw [hgen]
    exact h.login_le login hlogin
  · rintro _ ⟨⟩ hcur
    refine ⟨?_, hsto hcur⟩
    exact (h.alone login hlogin (hgen ▸ hcur)).1
  · rintro generation pair ⟨⟩
    exact absurd rfl (hph pair)

theorem leave (h : SingleFlight s) : SingleFlight (s.setLogin none) :=
  h.shrink (Or.inr rfl) (fun hne hne' => ⟨hne, hne'⟩) nofun nofun nofun

theorem forgetRevoked_active (s : State) (pending : Token) :
    (s.forgetRevoked pending).activeRefreshToken = none ∨
      (s.forgetRevoked pending).activeRefreshToken = s.activeRefreshToken := by
  simp only [State.forgetRevoked]
  split
  · exact Or.inl rfl
  · exact Or.inr rfl

theorem forgetRevoked_both (s : State) (pending : Token)
    (hact : (s.forgetRevoked pending).activeRefreshToken ≠ none)
    (hpend : (s.forgetRevoked pending).pendingRevocationToken ≠ none) :
    s.activeRefreshToken ≠ none ∧ s.pendingRevocationToken ≠ none := by
  simp only [State.forgetRevoked] at hact hpend
  constructor
  · intro hnone
    simp [hnone] at hact
  · intro hnone
    simp [hnone] at hpend

theorem forget (h : SingleFlight s) (happart : Apart s) (pending : Token) :
    SingleFlight (s.forgetRevoked pending) := by
  refine h.shrink (forgetRevoked_active s pending) (forgetRevoked_both s pending) h.login_le ?_
    h.exchanged
  intro login hlogin hgen
  obtain ⟨hos, hsto⟩ := h.alone login hlogin hgen
  refine ⟨hos, ?_⟩
  obtain ⟨generation, phase⟩ := login
  cases phase with
  | discarding token => exact hsto.elim
  | browsing | exchanging | exchanged =>
    obtain ⟨hact, hpend⟩ := hsto
    exact ⟨by simp [hact], by simp [hpend]⟩
  | revoking token wasActive | revoked token wasActive =>
    obtain ⟨hpend, hact⟩ := hsto
    refine ⟨?_, ?_⟩
    · rcases hpend with hnone | hsome
      · exact Or.inl (by simp [hnone])
      · simp only [hsome]
        split
        · exact Or.inl rfl
        · exact Or.inr rfl
    · intro _
      rcases happart with hnone | hnone
      · simp [hnone]
      · simp [hact (Or.inr hnone)]

theorem loginRevoked {pending : Token} {wasActive : Bool} (h : SingleFlight s)
    (hlogin : s.login = some ⟨generation, .revoked pending wasActive⟩) :
    SingleFlight (s.loginRevoked generation pending wasActive) := by
  have hforgotten : SingleFlight ((s.forgetRevoked pending).setLogin none) :=
    h.shrink (forgetRevoked_active s pending) (forgetRevoked_both s pending) nofun nofun nofun
  simp only [State.loginRevoked]
  split
  · exact hforgotten
  · rename_i hstale
    have hcur : generation = s.sessionGeneration := not_not.mp hstale
    obtain ⟨hos, hsto, hact⟩ := h.alone _ hlogin hcur
    have hnone : (s.forgetRevoked pending).pendingRevocationToken = none := by
      rcases hsto with hnone | hsome
      · simp [State.forgetRevoked, hnone]
      · simp [State.forgetRevoked, hsome]
    have hle : generation ≤ s.sessionGeneration := h.login_le _ hlogin
    split
    · rename_i hwas
      refine h.shrink (forgetRevoked_active s pending) (forgetRevoked_both s pending) ?_ ?_ nofun
      · rintro _ ⟨⟩
        exact hle
      · rintro _ ⟨⟩ -
        exact ⟨hos, by simp [State.forgetRevoked, hact (Or.inl hwas)], hnone⟩
    · rw [loginActive_eq hnone]
      refine h.shrink (Or.inl rfl) (fun hne => absurd rfl hne) ?_ ?_ ?_
      · rintro _ ⟨⟩
        exact hle
      · rintro _ ⟨⟩ -
        exact ⟨hos, entering_stored _⟩
      · intro _ pair hent
        exact absurd (congrArg Login.phase (Option.some.inj hent)) (entering_ne _ pair)

theorem loginExchanged {pair : NativeTokenPair} (h : SingleFlight s)
    (hlogin : s.login = some ⟨generation, .exchanged pair⟩) :
    SingleFlight (s.loginExchanged generation pair) := by
  simp only [State.loginExchanged]
  split
  · rename_i hstale
    exact h.enter hlogin rfl (fun hcur => absurd hcur hstale) nofun
  · rename_i hstale
    have hcur : generation = s.sessionGeneration := not_not.mp hstale
    obtain ⟨hos, -, hpend⟩ := h.alone _ hlogin hcur
    obtain ⟨hiss, -, -, -, hfree⟩ := h.exchanged generation pair hlogin
    have hsto : SingleFlight { s.setLogin none with
        activeRefreshToken := some pair.refreshToken } := by
      refine h.leave.store hiss ?_ ?_ hpend nofun nofun
      · exact fun k other ho hsame => hfree k other ho (congrArg Token.session hsame)
      · intro k other answered ho _ hsame
        exact hfree k other ho (by rw [← hsame]; rfl)
    exact hsto.cache (some pair.accessToken)

theorem step (h : SingleFlight s) (hstep : Step s event t) : SingleFlight t := by
  cases hstep with
  | currentAccessToken fresh _ hfresh => exact h.currentAccessToken hfresh ..
  | recordingAccessTokenLease fresh _ hfresh => exact h.currentAccessToken hfresh ..
  | performAuthenticated fresh _ hfresh => exact h.currentAccessToken hfresh ..
  | refreshedAccessTokenAfterUnauthorized _ hfresh hlease =>
    exact h.refreshedAccessTokenAfterUnauthorized hfresh hlease _
  | send htask hph => exact h.setTask htask (Or.inl rfl) nofun
  | @rotate j task htask hph =>
    have hsrv := h.server (rotate_advances s.server task.refreshToken)
    refine hsrv.setTask htask (Or.inl rfl) ?_
    intro pair hpair
    rcases rotate_cases s.server task.refreshToken with ⟨hnone, -⟩ | ⟨hlive, hrotate⟩
    · rw [hnone] at hpair
      cases hpair
    · rw [hrotate] at hpair ⊢
      cases hpair
      have hunissued : ∀ {token}, Issued s.server token → token ≠ task.refreshToken.next := by
        rintro token ⟨session, hsess, hle⟩ rfl
        obtain rfl := Option.some.inj (hlive.symm.trans hsess)
        exact absurd hle (Nat.not_succ_le_self _)
      refine ⟨rfl, ⟨_, Function.update_self .., Nat.le_refl _⟩, ?_, ?_⟩
      · exact fun hact => hunissued (h.issued_active _ hact) rfl
      · exact fun k other ho => hunissued (h.issued_tasks k other ho)
  | settle htask hph =>
    refine h.refreshAccessToken htask ?_
    rintro pair rfl
    exact hph
  | refreshCancelled htask _ _ => exact h.refreshAccessToken htask nofun
  | refreshLost htask _ => exact h.refreshAccessToken htask nofun
  | @pairRevoked j task token htask hph =>
    refine (h.server (revoke_advances s.server token)).setTask htask (Or.inr ?_) nofun
    intro hact
    have hopen := (h.stored j task htask hact).2
    rw [hph] at hopen
    cases hopen
  | @pairRevokeLost j task token htask hph =>
    refine h.setTask htask (Or.inr ?_) nofun
    intro hact
    have hopen := (h.stored j task htask hact).2
    rw [hph] at hopen
    cases hopen
  | resumeRotation hcall htask hph => exact h.resumeRotation hcall htask hph
  | read hcall =>
    have happart := h.apart_of_call hcall (by rintro _ _ ⟨⟩)
    exact h.setCall (by rintro _ _ ⟨_, ⟨⟩⟩) (Or.inl happart)
  | resumeOperation hcall hfresh => exact h.resumeOperation hcall hfresh
  | operationLost _ => exact h.finish ..
  | answerLost _ => exact h.finish ..
  | logout _ => exact h.logout _
  | @logoutServed i pending hcall =>
    have happart := h.apart_of_call hcall (by rintro _ _ ⟨⟩)
    exact (h.server (revoke_advances s.server pending)).setCall (by rintro _ _ ⟨_, ⟨⟩⟩)
      (Or.inl happart)
  | logoutRevoked hcall =>
    exact (h.forget (h.apart_of_call hcall (by rintro _ _ ⟨⟩)) _).finish ..
  | logoutLost _ => exact h.finish ..
  | login _ => exact h.beginLogin
  | @loginServed generation pending wasActive hlogin =>
    refine (h.server (revoke_advances s.server pending)).enter hlogin rfl ?_ nofun
    exact fun hcur => (h.alone _ hlogin hcur).2
  | loginRevoked hlogin => exact h.loginRevoked hlogin
  | @loginAuthorized generation hlogin =>
    simp only [State.loginAuthorized]
    split
    · exact h.leave
    · refine h.enter hlogin rfl ?_ nofun
      exact fun hcur => (h.alone _ hlogin hcur).2
  | loginAbandoned _ => exact h.leave
  | @loginExchange generation session hlogin hnew =>
    have hadv : Advances s.server (Function.update s.server session (some ⟨0, false⟩)) := by
      intro name found hf
      have hname : name ≠ session := by
        rintro rfl
        rw [hnew] at hf
        cases hf
      exact ⟨found, (Function.update_of_ne hname ..).trans hf, Nat.le_refl _, id⟩
    have ho : ∀ {token}, Issued s.server token → token.session ≠ session := by
      rintro token ⟨found, hf, -⟩ rfl
      rw [hnew] at hf
      cases hf
    have hle : generation ≤ s.sessionGeneration := h.login_le _ hlogin
    refine (h.server hadv).shrink (Or.inr rfl) (fun hne hne' => ⟨hne, hne'⟩) ?_ ?_ ?_
    · rintro _ ⟨⟩
      exact hle
    · rintro _ ⟨⟩ hcur
      exact h.alone ⟨generation, .exchanging⟩ hlogin hcur
    · rintro _ pair ⟨⟩
      refine ⟨⟨_, Function.update_self .., Nat.le_refl _⟩, rfl, rfl, ?_, ?_⟩
      · exact fun token htok => ho (h.issued_active token htok)
      · exact fun k other htask => ho (h.issued_tasks k other htask)
  | loginRefused _ => exact h.leave
  | loginExchanged hlogin => exact h.loginExchanged hlogin
  | @loginDiscarded generation token hlogin =>
    exact (h.server (revoke_advances s.server token)).leave
  | loginLost _ => exact h.leave

end SingleFlight

/-! ## Sending -/

def TaskPhase.started : TaskPhase → Bool
  | .created => false
  | .sent | .answered _ | .revoking _ | .finished _ => true

/-- How often a token was sent to `refresh`. -/
def sends (token : Token) (trace : List (Transition State Event)) : Nat :=
  trace.countP fun e => match e.label with
    | .send _ sent => sent == token
    | _ => false

/-- Tasks stay, with their tokens, and none is started anew but by sending. -/
structure Keeps (s t : State) : Prop where
  task : ∀ j task, s.tasks j = some task → ∃ later, t.tasks j = some later ∧
    later.refreshToken = task.refreshToken ∧
      (task.phase.started = true → later.phase.started = true)

theorem keeps_of_tasks (htasks : t.tasks = s.tasks) : Keeps s t := by
  constructor
  intro k other ho
  exact ⟨other, by rw [htasks]; exact ho, rfl, id⟩

theorem Keeps.of_cleared (h : Keeps s.clearAccessToken t) : Keeps s t :=
  ⟨h.task⟩

theorem keeps_written {phase : TaskPhase} (htask : s.tasks j = some task)
    (hstart : task.phase.started = true → phase.started = true)
    (htasks : t.tasks = (s.setTask j { task with phase := phase }).tasks) : Keeps s t := by
  constructor
  intro k other ho
  by_cases hk : k = j
  · subst hk
    rw [htask] at ho
    cases ho
    exact ⟨{ task with phase := phase }, by rw [htasks, State.setTask_self], rfl, hstart⟩
  · exact ⟨other, by rw [htasks, State.setTask_ne _ _ hk]; exact ho, rfl, id⟩

theorem deliver_tasks (s : State) (i : Nat) (token : Token) (purpose : Purpose) :
    (s.deliver i token purpose).tasks = s.tasks := by
  cases purpose with
  | token => rfl
  | operation refused => rfl
  | lease generation =>
    simp only [State.deliver]
    split <;> rfl

theorem rotateAccessToken_keeps (hnew : s.tasks j = none) (i : Nat) (purpose : Purpose) :
    Keeps s (s.rotateAccessToken i j purpose) := by
  unfold State.rotateAccessToken
  split
  · exact keeps_of_tasks rfl
  · split
    · exact keeps_of_tasks rfl
    · constructor
      intro k other ho
      have hk : k ≠ j := by
        rintro rfl
        rw [hnew] at ho
        cases ho
      exact ⟨other, (State.setTask_ne _ _ hk).trans ho, rfl, id⟩

theorem currentAccessToken_keeps (hnew : s.tasks j = none) (i : Nat) (fresh : Bool)
    (purpose : Purpose) : Keeps s (s.currentAccessToken i j fresh purpose) := by
  unfold State.currentAccessToken
  split
  · exact keeps_of_tasks rfl
  · split
    · exact keeps_of_tasks (deliver_tasks ..)
    · exact rotateAccessToken_keeps hnew ..

theorem resumeRotation_tasks (s : State) (i : Nat) (creator : Option Nat) (purpose : Purpose)
    (res : Option Token) : (s.resumeRotation i creator purpose res).tasks = s.tasks := by
  unfold State.resumeRotation
  cases res with
  | none => by_cases hcreator : creator = some s.sessionGeneration <;> simp [hcreator] <;> rfl
  | some token =>
    by_cases hcreator : creator = some s.sessionGeneration
    · simp only [hcreator, if_true]
      exact deliver_tasks ..
    · simp only [hcreator, if_false]
      exact deliver_tasks ..

theorem refreshAccessToken_keeps (htask : s.tasks j = some task) (reply : Option NativeTokenPair) :
    Keeps s (s.refreshAccessToken j task reply) := by
  cases reply with
  | none =>
    simp only [State.refreshAccessToken]
    split <;> exact @keeps_written _ _ _ _ (.finished none) htask (fun _ => rfl) rfl
  | some pair =>
    simp only [State.refreshAccessToken]
    split
    · exact @keeps_written _ _ _ _ (.revoking pair.refreshToken) htask (fun _ => rfl) rfl
    · split
      · exact @keeps_written _ _ _ _ (.revoking pair.refreshToken) htask (fun _ => rfl) rfl
      · exact @keeps_written _ _ _ _ (.finished (some pair.accessToken)) htask (fun _ => rfl) rfl

theorem resumeOperation_keeps (hnew : s.tasks j = none) (i : Nat)
    (refused answer : Option Refusal) : Keeps s (s.resumeOperation i j refused answer) := by
  cases answer with
  | none => cases refused <;> exact keeps_of_tasks rfl
  | some refusal =>
    cases refused with
    | some first => exact keeps_of_tasks rfl
    | none => exact (@rotateAccessToken_keeps s.clearAccessToken _ hnew _ _).of_cleared

theorem quarantine_tasks {active : Token} (h : s.quarantine active = some t) :
    t.tasks = s.tasks := by
  unfold State.quarantine at h
  split at h
  · cases h
    rfl
  · cases h

theorem logout_tasks (s : State) (i : Nat) : (s.logout i).tasks = s.tasks := by
  simp only [State.logout]
  split
  · split <;> rfl
  · split
    · rfl
    · rename_i hquar
      have htasks := quarantine_tasks hquar
      exact htasks

theorem loginActive_tasks (s : State) (generation : Nat) :
    (s.loginActive generation).tasks = s.tasks := by
  unfold State.loginActive
  split
  · rfl
  · split
    · rfl
    · rename_i hquar
      have htasks := quarantine_tasks hquar
      exact htasks

theorem Step.keeps (hstep : Step s event t) : Keeps s t := by
  cases hstep with
  | currentAccessToken fresh _ hnew => exact currentAccessToken_keeps hnew ..
  | recordingAccessTokenLease fresh _ hnew => exact currentAccessToken_keeps hnew ..
  | performAuthenticated fresh _ hnew => exact currentAccessToken_keeps hnew ..
  | refreshedAccessTokenAfterUnauthorized _ hnew _ =>
    unfold State.refreshedAccessTokenAfterUnauthorized
    split
    · exact (@rotateAccessToken_keeps s.clearAccessToken _ hnew _ _).of_cleared
    · exact keeps_of_tasks rfl
  | send htask _ => exact @keeps_written _ _ _ _ .sent htask (fun _ => rfl) rfl
  | rotate htask _ => exact @keeps_written _ _ _ _ (.answered _) htask (fun _ => rfl) rfl
  | settle htask _ => exact refreshAccessToken_keeps htask _
  | refreshCancelled htask _ _ => exact refreshAccessToken_keeps htask _
  | refreshLost htask _ => exact refreshAccessToken_keeps htask _
  | pairRevoked htask _ => exact @keeps_written _ _ _ _ (.finished none) htask (fun _ => rfl) rfl
  | pairRevokeLost htask _ =>
    exact @keeps_written _ _ _ _ (.finished none) htask (fun _ => rfl) rfl
  | resumeRotation _ _ _ => exact keeps_of_tasks (resumeRotation_tasks ..)
  | resumeOperation _ hnew => exact resumeOperation_keeps hnew ..
  | logout _ => exact keeps_of_tasks (logout_tasks ..)
  | login _ =>
    refine keeps_of_tasks ?_
    simp only [State.beginLogin]
    split
    · rfl
    · exact loginActive_tasks ..
  | loginRevoked _ =>
    refine keeps_of_tasks ?_
    simp only [State.loginRevoked]
    split
    · rfl
    · split
      · rfl
      · exact loginActive_tasks ..
  | loginAuthorized _ =>
    refine keeps_of_tasks ?_
    simp only [State.loginAuthorized]
    split <;> rfl
  | loginExchanged _ =>
    refine keeps_of_tasks ?_
    simp only [State.loginExchanged]
    split <;> rfl
  | read | operationLost | answerLost | logoutServed | logoutRevoked | logoutLost | loginServed
  | loginAbandoned | loginExchange | loginRefused | loginDiscarded | loginLost =>
    exact keeps_of_tasks rfl

theorem Step.sent {sent : Token} (hstep : Step s (.send j sent) t) :
    ∃ task, s.tasks j = some task ∧ task.phase = .created ∧ task.refreshToken = sent ∧
      t.tasks j = some { task with phase := .sent } := by
  generalize hev : Event.send j sent = event at hstep
  cases hstep with
  | send htask hph =>
    cases hev
    exact ⟨_, htask, hph, rfl, State.setTask_self ..⟩
  | _ => cases hev

theorem sends_snoc (token : Token) (trace : List (Transition State Event))
    (e : Transition State Event) :
    sends token (trace ++ [e]) = sends token trace + sends token [e] :=
  List.countP_append ..

theorem sends_le_one {start final : State} {trace : List (Transition State Event)}
    (hinit : Initial start) (hrun : Run Step start trace final) (token : Token) :
    sends token trace ≤ 1 := by
  have key : SingleFlight final ∧ sends token trace ≤ 1 ∧ (sends token trace = 0 ∨
      ∃ j task, final.tasks j = some task ∧ task.refreshToken = token ∧
        task.phase.started = true) := by
    refine hrun.invariant (I := fun trace s => SingleFlight s ∧ sends token trace ≤ 1 ∧
      (sends token trace = 0 ∨ ∃ j task, s.tasks j = some task ∧ task.refreshToken = token ∧
        task.phase.started = true)) ⟨singleFlight_initial hinit, Nat.zero_le _, Or.inl rfl⟩ ?_
    rintro trace s event t ⟨hsingle, hle, hstart⟩ hstep
    refine ⟨hsingle.step hstep, ?_⟩
    rw [sends_snoc]
    by_cases hsend : ∃ j, event = .send j token
    · obtain ⟨j, rfl⟩ := hsend
      obtain ⟨task, htask, hph, htok, ha⟩ := hstep.sent
      have hnone : sends token trace = 0 := by
        rcases hstart with hnone | ⟨k, other, ho, hsame, ho'⟩
        · exact hnone
        · obtain rfl := hsingle.distinct k j other task ho htask (hsame.trans htok.symm)
          obtain rfl := Option.some.inj (htask.symm.trans ho)
          rw [hph] at ho'
          cases ho'
      have hone : sends token [⟨s, .send j token, t⟩] = 1 := by simp [sends]
      rw [hnone, hone]
      exact ⟨Nat.le_refl _, Or.inr ⟨j, _, ha, htok, rfl⟩⟩
    · have hzero : sends token [⟨s, event, t⟩] = 0 := by
        cases event with
        | send j sent =>
          have hne : sent ≠ token := by
            rintro rfl
            exact hsend ⟨j, rfl⟩
          simp [sends, hne]
        | _ => rfl
      rw [hzero]
      refine ⟨hle, hstart.imp id ?_⟩
      rintro ⟨k, other, ho, hsame, hstart⟩
      obtain ⟨later, hlat, htok, hkept⟩ := hstep.keeps.task k other ho
      exact ⟨k, later, hlat, htok.trans hsame, hkept hstart⟩
  exact key.2.1

end TamForge.Auth.Client
