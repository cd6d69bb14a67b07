import TamForge.ProofSupport.Run
import Mathlib.Logic.Function.Basic

/-!
# The native client

`NativeAuthenticationCoordinator` of the Mac client against the native sessions
of the server.  The coordinator is an actor: a call runs until it awaits, and
any other call may run before it goes on.  A secret never repeats, so a token is
named by its session and its number in it; what the server compares is that name.
-/

namespace TamForge.Auth.Client

open ProofSupport

structure Token where
  session : Nat
  number : Nat
deriving DecidableEq

def Token.next (token : Token) : Token := ⟨token.session, token.number + 1⟩

structure NativeTokenPair where
  accessToken : Token
  refreshToken : Token

/-! ## The server -/

/-- The tokens below `latest` are consumed. -/
structure NativeSession where
  latest : Nat
  revoked : Bool

abbrev Server := Nat → Option NativeSession

/-- `revoke_native_session` -/
def Server.revoke (server : Server) (token : Token) : Server :=
  match server token.session with
  | none => server
  | some session => Function.update server token.session (some { session with revoked := true })

/-- `rotate_native_refresh_token`: a consumed token revokes its session. -/
def Server.rotate (server : Server) (token : Token) : Option NativeTokenPair × Server :=
  match server token.session with
  | none => (none, server)
  | some session =>
    if token.number < session.latest then (none, server.revoke token)
    else if session.revoked ∨ token.number ≠ session.latest then (none, server)
    else
      (some ⟨token.next, token.next⟩,
        Function.update server token.session (some { session with latest := token.number + 1 }))

/-- Why an operation is unauthorized. -/
inductive Refusal
  | superseded | dead

/-- `find_active_native_session` for an access token.  A live session refuses
every token but its latest. -/
def Server.refusal (server : Server) (token : Token) : Option Refusal :=
  match server token.session with
  | none => some .dead
  | some session =>
    if session.revoked then some .dead
    else if token.number = session.latest then none else some .superseded

/-! ## The coordinator -/

inductive TaskPhase
  | created
  | sent
  | answered (reply : Option NativeTokenPair)
  | revoking (refreshToken : Token)
  | finished (result : Option Token)

structure RefreshTask where
  refreshToken : Token
  generation : Nat
  phase : TaskPhase

/-- What a call does with the token it gets: return it, return it as a lease of
a generation, or run its operation, for the second time after a refusal. -/
inductive Purpose
  | token
  | lease (generation : Nat)
  | operation (refused : Option Refusal)

inductive Outcome
  | returned | unauthorized | failed

/-- Where a call stands.  A call that created the refresh task it waits for
keeps the generation of then. -/
inductive CallPhase
  | awaiting (task : Nat) (creator : Option Nat) (purpose : Purpose)
  | operating (token : Token) (refused : Option Refusal)
  | operated (token : Token) (refused : Option Refusal) (answer : Option Refusal)
  | revoking (pending : Token)
  | revoked (pending : Token)
  | ended (refused : Option Refusal) (outcome : Outcome)

/-- Where `login` stands: it revokes what is pending, then what is active. -/
inductive LoginPhase
  | revoking (pending : Token) (wasActive : Bool)
  | revoked (pending : Token) (wasActive : Bool)
  | browsing
  | exchanging
  | exchanged (pair : NativeTokenPair)
  | discarding (refreshToken : Token)

structure Login where
  generation : Nat
  phase : LoginPhase

/-- The coordinator, the credential store, what runs, and the server.
`loginInProgress` says that there is a `login`; `leases` are the generations of
the leases handed out. -/
structure State where
  accessToken : Option Token
  refreshTask : Option Nat
  sessionGeneration : Nat
  login : Option Login
  activeRefreshToken : Option Token
  pendingRevocationToken : Option Token
  leases : List Nat
  tasks : Nat → Option RefreshTask
  calls : Nat → Option CallPhase
  server : Server

namespace State

def setCall (s : State) (i : Nat) (phase : CallPhase) : State :=
  { s with calls := Function.update s.calls i (some phase) }

def setTask (s : State) (j : Nat) (task : RefreshTask) : State :=
  { s with tasks := Function.update s.tasks j (some task) }

@[simp] theorem setCall_self (s : State) (i : Nat) (phase : CallPhase) :
    (s.setCall i phase).calls i = some phase :=
  Function.update_self ..

theorem setCall_ne (s : State) {i k : Nat} (phase : CallPhase) (h : k ≠ i) :
    (s.setCall i phase).calls k = s.calls k :=
  Function.update_of_ne h ..

@[simp] theorem setTask_self (s : State) (j : Nat) (task : RefreshTask) :
    (s.setTask j task).tasks j = some task :=
  Function.update_self ..

theorem setTask_ne (s : State) {j k : Nat} (task : RefreshTask) (h : k ≠ j) :
    (s.setTask j task).tasks k = s.tasks k :=
  Function.update_of_ne h ..

def clearAccessToken (s : State) : State :=
  { s with accessToken := none }

def apply (s : State) (pair : NativeTokenPair) : State :=
  { s with accessToken := some pair.accessToken }

def invalidateSession (s : State) : State :=
  { s with sessionGeneration := s.sessionGeneration + 1, refreshTask := none, accessToken := none }

/-- `quarantineActiveRefreshCredential` for an active credential; `none` when it
throws. -/
def quarantine (s : State) (active : Token) : Option State :=
  if s.pendingRevocationToken.all (· == active) then
    some { s with pendingRevocationToken := some active, activeRefreshToken := none }
  else none

/-- `retryPendingRevocation` after the server has revoked `pending`. -/
def forgetRevoked (s : State) (pending : Token) : State :=
  { s with
    activeRefreshToken := if s.activeRefreshToken = some pending then none else s.activeRefreshToken,
    pendingRevocationToken :=
      if s.pendingRevocationToken = some pending then none else s.pendingRevocationToken }

/-! ### Tokens -/

def deliver (s : State) (i : Nat) (token : Token) : Purpose → State
  | .token => s.setCall i (.ended none .returned)
  | .lease generation =>
    if generation = s.sessionGeneration then
      { s with leases := generation :: s.leases }.setCall i (.ended none .returned)
    else s.setCall i (.ended none .failed)
  | .operation refused => s.setCall i (.operating token refused)

/-- The call ends without a token. -/
def Purpose.refused : Purpose → Option Refusal
  | .operation refused => refused
  | .token | .lease _ => none

def fail (s : State) (i : Nat) (purpose : Purpose) : State :=
  s.setCall i (.ended (Purpose.refused purpose) .failed)

/-- `rotateAccessToken` up to its await; `j` is a task that does not exist yet. -/
def rotateAccessToken (s : State) (i j : Nat) (purpose : Purpose) : State :=
  match s.refreshTask with
  | some task => s.setCall i (.awaiting task none purpose)
  | none =>
    match s.activeRefreshToken with
    | none => s.fail i purpose
    | some refreshToken =>
      ({ s with refreshTask := some j }.setTask j
        ⟨refreshToken, s.sessionGeneration, .created⟩).setCall i
          (.awaiting j (some s.sessionGeneration) purpose)

/-- `rotateAccessToken` after its task has finished. -/
def resumeRotation (s : State) (i : Nat) (creator : Option Nat) (purpose : Purpose)
    (result : Option Token) : State :=
  let s := if creator = some s.sessionGeneration then { s with refreshTask := none } else s
  match result with
  | none => s.fail i purpose
  | some token => s.deliver i token purpose

/-- `currentAccessToken`; `fresh` is what the clock says of the cached token. -/
def currentAccessToken (s : State) (i j : Nat) (fresh : Bool) (purpose : Purpose) : State :=
  if s.pendingRevocationToken.isSome then s.fail i purpose
  else
    match s.accessToken, fresh with
    | some token, true => s.deliver i token purpose
    | _, _ => s.rotateAccessToken i j purpose

def refreshedAccessTokenAfterUnauthorized (s : State) (i j generation : Nat) : State :=
  if generation = s.sessionGeneration then
    s.clearAccessToken.rotateAccessToken i j (.lease generation)
  else s.fail i (.lease generation)

/-- `performAuthenticated` after the server answered its operation.  A second
refusal is the caller's. -/
def resumeOperation (s : State) (i j : Nat) : Option Refusal → Option Refusal → State
  | refused, none => s.setCall i (.ended refused .returned)
  | none, some refusal => s.clearAccessToken.rotateAccessToken i j (.operation (some refusal))
  | some refused, some _ => s.setCall i (.ended (some refused) .unauthorized)

/-- `refreshAccessToken` from the reply to `refresh` on; `none` is an error.  The
second look at the pending revocation reads what the first one read. -/
def refreshAccessToken (s : State) (j : Nat) (task : RefreshTask) :
    Option NativeTokenPair → State
  | none =>
    let s := s.setTask j { task with phase := .finished none }
    if task.generation = s.sessionGeneration then
      { s.clearAccessToken with
        pendingRevocationToken := some task.refreshToken, activeRefreshToken := none }
    else s
  | some pair =>
    if task.generation ≠ s.sessionGeneration then
      s.setTask j { task with phase := .revoking pair.refreshToken }
    else if s.pendingRevocationToken.isSome then
      s.clearAccessToken.setTask j { task with phase := .revoking pair.refreshToken }
    else
      ({ s with activeRefreshToken := some pair.refreshToken }.apply pair).setTask j
        { task with phase := .finished (some pair.accessToken) }

/-! ### Logging out and in -/

/-- `logout` up to its await. -/
def logout (s : State) (i : Nat) : State :=
  let s := s.invalidateSession
  match s.activeRefreshToken with
  | none =>
    match s.pendingRevocationToken with
    | none => s.setCall i (.ended none .returned)
    | some pending => s.setCall i (.revoking pending)
  | some active =>
    match s.quarantine active with
    | none => s.setCall i (.ended none .failed)
    | some s => s.setCall i (.revoking active)

def setLogin (s : State) (login : Option Login) : State :=
  { s with login := login }

/-- `login` once nothing is pending any more. -/
def loginActive (s : State) (generation : Nat) : State :=
  match s.activeRefreshToken with
  | none => s.setLogin (some ⟨generation, .browsing⟩)
  | some active =>
    match s.quarantine active with
    | none => s.setLogin none
    | some s => s.setLogin (some ⟨generation, .revoking active true⟩)

/-- `login` up to its first await. -/
def beginLogin (s : State) : State :=
  let s := s.invalidateSession
  match s.pendingRevocationToken with
  | some pending => s.setLogin (some ⟨s.sessionGeneration, .revoking pending false⟩)
  | none => s.loginActive s.sessionGeneration

/-- `login` after a revocation. -/
def loginRevoked (s : State) (generation : Nat) (pending : Token) (wasActive : Bool) : State :=
  let s := s.forgetRevoked pending
  if generation ≠ s.sessionGeneration then s.setLogin none
  else if wasActive then s.setLogin (some ⟨generation, .browsing⟩)
  else s.loginActive generation

/-- `login` after the browser came back. -/
def loginAuthorized (s : State) (generation : Nat) : State :=
  if generation ≠ s.sessionGeneration then s.setLogin none
  else s.setLogin (some ⟨generation, .exchanging⟩)

/-- `login` after the exchange of its code. -/
def loginExchanged (s : State) (generation : Nat) (pair : NativeTokenPair) : State :=
  if generation ≠ s.sessionGeneration then
    s.setLogin (some ⟨generation, .discarding pair.refreshToken⟩)
  else ({ s with activeRefreshToken := some pair.refreshToken }.apply pair).setLogin none

end State

/-! ## Runs -/

inductive Event
  | call (i : Nat)
  | logout (i : Nat)
  | login
  | send (j : Nat) (refreshToken : Token)
  | rotate (j : Nat) (refreshToken : Token)
  | read (i : Nat) (token : Token)
  | served
  | settle (j : Nat)
  | cancelled (j : Nat)
  | resume (i : Nat)
  | loginResumed
  | lost

def TaskPhase.asking : TaskPhase → Bool
  | .sent | .answered _ => true
  | .created | .revoking _ | .finished _ => false

/-- One call up to its next await, or one request at the server.  A request or
its reply may be `lost`; `cancelled` is a refresh given up because the session
was invalidated. -/
inductive Step (s : State) : Event → State → Prop
  | currentAccessToken {i j : Nat} (fresh : Bool) : s.calls i = none → s.tasks j = none →
      Step s (.call i) (s.currentAccessToken i j fresh .token)
  | recordingAccessTokenLease {i j : Nat} (fresh : Bool) : s.calls i = none → s.tasks j = none →
      Step s (.call i) (s.currentAccessToken i j fresh (.lease s.sessionGeneration))
  | performAuthenticated {i j : Nat} (fresh : Bool) : s.calls i = none → s.tasks j = none →
      Step s (.call i) (s.currentAccessToken i j fresh (.operation none))
  | refreshedAccessTokenAfterUnauthorized {i j generation : Nat} : s.calls i = none →
      s.tasks j = none → generation ∈ s.leases →
      Step s (.call i) (s.refreshedAccessTokenAfterUnauthorized i j generation)
  | send {j : Nat} {task : RefreshTask} : s.tasks j = some task → task.phase = .created →
      Step s (.send j task.refreshToken) (s.setTask j { task with phase := .sent })
  | rotate {j : Nat} {task : RefreshTask} : s.tasks j = some task → task.phase = .sent →
      Step s (.rotate j task.refreshToken)
        { s.setTask j
            { task with phase := .answered (s.server.rotate task.refreshToken).1 } with
          server := (s.server.rotate task.refreshToken).2 }
  | settle {j : Nat} {task : RefreshTask} {reply : Option NativeTokenPair} :
      s.tasks j = some task → task.phase = .answered reply →
      Step s (.settle j) (s.refreshAccessToken j task reply)
  | refreshCancelled {j : Nat} {task : RefreshTask} : s.tasks j = some task →
      task.phase.asking = true → task.generation ≠ s.sessionGeneration →
      Step s (.cancelled j) (s.refreshAccessToken j task none)
  | refreshLost {j : Nat} {task : RefreshTask} : s.tasks j = some task →
      task.phase.asking = true → Step s .lost (s.refreshAccessToken j task none)
  | pairRevoked {j : Nat} {task : RefreshTask} {token : Token} : s.tasks j = some task →
      task.phase = .revoking token →
      Step s .served
        { s.setTask j { task with phase := .finished none } with server := s.server.revoke token }
  | pairRevokeLost {j : Nat} {task : RefreshTask} {token : Token} : s.tasks j = some task →
      task.phase = .revoking token →
      Step s .lost (s.setTask j { task with phase := .finished none })
  | resumeRotation {i j : Nat} {creator : Option Nat} {purpose : Purpose} {task : RefreshTask}
      {result : Option Token} : s.calls i = some (.awaiting j creator purpose) →
      s.tasks j = some task → task.phase = .finished result →
      Step s (.resume i) (s.resumeRotation i creator purpose result)
  | read {i : Nat} {token : Token} {refused : Option Refusal} :
      s.calls i = some (.operating token refused) →
      Step s (.read i token) (s.setCall i (.operated token refused (s.server.refusal token)))
  | resumeOperation {i j : Nat} {token : Token} {refused answer : Option Refusal} :
      s.calls i = some (.operated token refused answer) → s.tasks j = none →
      Step s (.resume i) (s.resumeOperation i j refused answer)
  | operationLost {i : Nat} {token : Token} {refused : Option Refusal} :
      s.calls i = some (.operating token refused) →
      Step s .lost (s.setCall i (.ended refused .failed))
  | answerLost {i : Nat} {token : Token} {refused answer : Option Refusal} :
      s.calls i = some (.operated token refused answer) →
      Step s .lost (s.setCall i (.ended refused .failed))
  | logout {i : Nat} : s.calls i = none → Step s (.logout i) (s.logout i)
  | logoutServed {i : Nat} {pending : Token} : s.calls i = some (.revoking pending) →
      Step s .served
        { s.setCall i (.revoked pending) with server := s.server.revoke pending }
  | logoutRevoked {i : Nat} {pending : Token} : s.calls i = some (.revoked pending) →
      Step s (.resume i) ((s.forgetRevoked pending).setCall i (.ended none .returned))
  | logoutLost {i : Nat} {pending : Token} :
      s.calls i = some (.revoking pending) ∨ s.calls i = some (.revoked pending) →
      Step s .lost (s.setCall i (.ended none .failed))
  | login : s.login = none → Step s .login s.beginLogin
  | loginServed {generation : Nat} {pending : Token} {wasActive : Bool} :
      s.login = some ⟨generation, .revoking pending wasActive⟩ →
      Step s .served
        { s.setLogin (some ⟨generation, .revoked pending wasActive⟩) with
          server := s.server.revoke pending }
  | loginRevoked {generation : Nat} {pending : Token} {wasActive : Bool} :
      s.login = some ⟨generation, .revoked pending wasActive⟩ →
      Step s .loginResumed (s.loginRevoked generation pending wasActive)
  | loginAuthorized {generation : Nat} : s.login = some ⟨generation, .browsing⟩ →
      Step s .loginResumed (s.loginAuthorized generation)
  | loginAbandoned {generation : Nat} : s.login = some ⟨generation, .browsing⟩ →
      Step s .loginResumed (s.setLogin none)
  | loginExchange {generation session : Nat} : s.login = some ⟨generation, .exchanging⟩ →
      s.server session = none →
      Step s .served
        { s.setLogin (some ⟨generation, .exchanged ⟨⟨session, 0⟩, ⟨session, 0⟩⟩⟩) with
          server := Function.update s.server session (some ⟨0, false⟩) }
  | loginRefused {generation : Nat} : s.login = some ⟨generation, .exchanging⟩ →
      Step s .loginResumed (s.setLogin none)
  | loginExchanged {generation : Nat} {pair : NativeTokenPair} :
      s.login = some ⟨generation, .exchanged pair⟩ →
      Step s .loginResumed (s.loginExchanged generation pair)
  | loginDiscarded {generation : Nat} {token : Token} :
      s.login = some ⟨generation, .discarding token⟩ →
      Step s .served { s.setLogin none with server := s.server.revoke token }
  | loginLost {login : Login} : s.login = some login → Step s .lost (s.setLogin none)

/-- A call of `performAuthenticated` that has not ended. -/
def CallPhase.performing : CallPhase → Bool
  | .awaiting _ _ (.operation _) | .operating _ _ | .operated _ _ _ => true
  | .awaiting _ _ _ | .revoking _ | .revoked _ | .ended _ _ => false

def Performing (s : State) : Prop :=
  ∃ i phase, s.calls i = some phase ∧ phase.performing = true

def CallPhase.Retries (s : State) (token : Token) : CallPhase → Prop
  | .awaiting j _ (.operation (some _)) =>
    ∃ task, s.tasks j = some task ∧ task.phase = .finished (some token)
  | .operating held (some _) => held = token
  | _ => False

/-- A coordinator that was just made, over any credential store and any server
that has issued the stored tokens. -/
structure Initial (s : State) : Prop where
  accessToken : s.accessToken = none
  refreshTask : s.refreshTask = none
  login : s.login = none
  leases : s.leases = []
  tasks : ∀ j, s.tasks j = none
  calls : ∀ i, s.calls i = none
  issued : ∀ token, s.activeRefreshToken = some token ∨ s.pendingRevocationToken = some token →
    ∃ session, s.server token.session = some session ∧ token.number ≤ session.latest

/-- The credential store is as a coordinator left it: a token in both places is
one that was being quarantined, and an active one is the latest of a live session. -/
structure Kept (s : State) : Prop where
  stored : s.activeRefreshToken = none ∨ s.pendingRevocationToken = none ∨
    s.activeRefreshToken = s.pendingRevocationToken
  live : ∀ token, s.activeRefreshToken = some token → s.pendingRevocationToken = none →
    s.server token.session = some ⟨token.number, false⟩

end TamForge.Auth.Client
