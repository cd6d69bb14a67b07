import TamForge.Auth.Crypto
import TamForge.ProofSupport.Serial

/-!
# Native sign-in rows

The tables of `auth/models.py` that the native sign-in writes.  A hash is
compared by value only, so it stands for the secret it was made of.
-/

namespace TamForge.Auth

open Models ProofSupport

abbrev Hash := String

structure Owner where
  id : Nat
  githubUserId : Nat
  githubLogin : String

structure NativeExchangeCode where
  id : Nat
  ownerId : Nat
  codeHash : Hash
  pkceChallenge : String
  expiresAt : Instant
  consumedAt : Option Instant
  createdAt : Instant

structure NativeAuthSession where
  id : Nat
  ownerId : Nat
  accessTokenHash : Hash
  accessExpiresAt : Instant
  revokedAt : Option Instant
  createdAt : Instant

structure NativeRefreshToken where
  id : Nat
  sessionId : Nat
  tokenHash : Hash
  expiresAt : Instant
  consumedAt : Option Instant
  replacedById : Option Nat
  revokedAt : Option Instant
  createdAt : Instant
deriving DecidableEq

inductive AuditOutcome
  | succeeded | denied | noop

inductive AuditReasonCode
  | none | expired | conflict | revoked

/-- What `_native_audit_event` records of a call. -/
structure NativeAuditEvent where
  ownerId : Nat
  actorSubjectHash : Hash
  action : String
  aggregateId : Nat
  outcome : AuditOutcome
  reason : AuditReasonCode
  authenticated : Bool
  replayed : Bool

structure PersistedNativeSession where
  sessionId : Nat
  ownerId : Nat
  githubUserId : Nat
  githubLogin : String
  accessTokenHash : Hash
  accessExpiresAt : Instant
  refreshTokenHash : Hash
  refreshExpiresAt : Instant
  revokedAt : Option Instant

/-- The lifetimes that `AuthService` takes. -/
structure NativeLifetimes where
  access : Int
  refresh : Int
  exchange : Int
  access_bounds : seconds 300 ≤ access ∧ access ≤ seconds 3600
  refresh_bounds : seconds 86400 ≤ refresh ∧ refresh ≤ seconds 7776000
  exchange_bounds : seconds 60 ≤ exchange ∧ exchange ≤ seconds 300

structure AuthDb where
  owners : Serial Owner
  codes : Serial NativeExchangeCode
  sessions : Serial NativeAuthSession
  tokens : Serial NativeRefreshToken
  audit : List NativeAuditEvent

end TamForge.Auth

/-!
## Native sessions

The transactions of `SqlAlchemyAuthRepository` that create, rotate, look up and
revoke a native session, each with the statements it issues.  A transaction that
raises leaves no trace.
-/

namespace TamForge.Auth

open Models ProofSupport

/-- What a statement can raise; the repository reports each of them as an
outage. -/
inductive StoreError
  | multipleResults
  | noResult
  | integrity

def oneOrNone {α : Type} : List α → Except StoreError (Option α)
  | [] => .ok none
  | [row] => .ok (some row)
  | _ :: _ :: _ => .error .multipleResults

def one {α : Type} : List α → Except StoreError α
  | [] => .error .noResult
  | [row] => .ok row
  | _ :: _ :: _ => .error .multipleResults

def AuthDb.record (db : AuthDb) (event : NativeAuditEvent) : AuthDb :=
  { db with audit := db.audit ++ [event] }

def upsertOwner (owners : Serial Owner) (githubUserId : Nat) (githubLogin : String) :
    Owner × Serial Owner :=
  match owners.rows.find? (fun owner => owner.githubUserId == githubUserId) with
  | some owner =>
    let owner := { owner with githubLogin := githubLogin }
    (owner, owners.replace Owner.id owner)
  | none => owners.insert fun id => ⟨id, githubUserId, githubLogin⟩

def createNativeExchange (lifetimes : NativeLifetimes) (now : Instant) (githubUserId : Nat)
    (githubLogin : String) (codeHash : Hash) (pkceChallenge : String) (db : AuthDb) :
    Except StoreError AuthDb := do
  raiseFirst [
    (githubUserId == 0 || isBtrimBlank githubLogin, .integrity),
    (!isNonce pkceChallenge.toList, .integrity),
    (db.codes.rows.any (fun code => code.codeHash == codeHash), .integrity)]
  let (owner, owners) := upsertOwner db.owners githubUserId githubLogin
  let (_, codes) := db.codes.insert fun id =>
    ⟨id, owner.id, codeHash, pkceChallenge, now + lifetimes.exchange, none, now⟩
  return { db with owners := owners, codes := codes }

/-- What `create_native_oauth_flow` deletes before it counts the flows. -/
def deleteExpiredCodes (now : Instant) (db : AuthDb) : AuthDb :=
  { db with
    codes := { db.codes with
      rows := db.codes.rows.filter fun code => !decide (code.expiresAt ≤ now) } }

def NativeExchangeCode.usable (now : Instant) (codeHash : Hash) (pkceChallenge : String)
    (code : NativeExchangeCode) : Bool :=
  code.codeHash == codeHash && code.pkceChallenge == pkceChallenge &&
    code.consumedAt.isNone && decide (now < code.expiresAt)

def exchangeDenied (now : Instant) (codeHash : Hash) (denied : NativeExchangeCode) :
    NativeAuditEvent where
  ownerId := denied.ownerId
  actorSubjectHash := codeHash
  action := "auth.native_exchange.denied"
  aggregateId := denied.id
  outcome := .denied
  reason := if denied.expiresAt ≤ now then .expired else .conflict
  authenticated := false
  replayed := denied.consumedAt.isSome

def exchangeSucceeded (ownerId : Nat) (codeHash : Hash) (sessionId : Nat) :
    NativeAuditEvent where
  ownerId := ownerId
  actorSubjectHash := codeHash
  action := "auth.native_exchange.succeeded"
  aggregateId := sessionId
  outcome := .succeeded
  reason := .none
  authenticated := true
  replayed := false

def createSession (lifetimes : NativeLifetimes) (now : Instant) (code : NativeExchangeCode)
    (owner : Owner) (accessTokenHash refreshTokenHash : Hash) (db : AuthDb) :
    PersistedNativeSession × AuthDb :=
  let (session, sessions) := db.sessions.insert fun id =>
    ⟨id, code.ownerId, accessTokenHash, now + lifetimes.access, none, now⟩
  let (refresh, tokens) := db.tokens.insert fun id =>
    ⟨id, session.id, refreshTokenHash, now + lifetimes.refresh, none, none, none, now⟩
  (⟨session.id, code.ownerId, owner.githubUserId, owner.githubLogin, accessTokenHash,
      session.accessExpiresAt, refreshTokenHash, refresh.expiresAt, session.revokedAt⟩,
    { db with
      sessions := sessions
      tokens := tokens
      audit := db.audit ++ [exchangeSucceeded code.ownerId code.codeHash session.id] })

def consumeNativeExchangeAndCreateSession (lifetimes : NativeLifetimes) (now : Instant)
    (codeHash : Hash) (pkceChallenge : String) (accessTokenHash refreshTokenHash : Hash)
    (db : AuthDb) : Except StoreError (Option PersistedNativeSession × AuthDb) := do
  let exchange ← oneOrNone (db.codes.rows.filter (·.usable now codeHash pkceChallenge))
  match exchange with
  | none =>
    let denied ← oneOrNone (db.codes.rows.filter fun code => code.codeHash == codeHash)
    match denied with
    | none => return (none, db)
    | some denied => return (none, db.record (exchangeDenied now codeHash denied))
  | some code =>
    let owner ← one (db.owners.rows.filter fun owner => owner.id == code.ownerId)
    raiseFirst [
      (decide (now < code.createdAt), .integrity),
      (db.sessions.rows.any (fun session => session.accessTokenHash == accessTokenHash),
        .integrity),
      (db.tokens.rows.any (fun token => token.tokenHash == refreshTokenHash), .integrity)]
    let codes := db.codes.replace NativeExchangeCode.id { code with consumedAt := some now }
    let (session, db) := createSession lifetimes now code owner accessTokenHash
      refreshTokenHash { db with codes := codes }
    return (some session, db)

/-- The statement that `rotate_native_refresh_token` locks its rows with. -/
def refreshRows (refreshTokenHash : Hash) (db : AuthDb) :
    List (NativeRefreshToken × NativeAuthSession × Owner) :=
  (db.tokens.rows.filter fun token => token.tokenHash == refreshTokenHash).flatMap fun token =>
    (db.sessions.rows.filter fun session => session.id == token.sessionId).flatMap fun session =>
      (db.owners.rows.filter fun owner => owner.id == session.ownerId).map fun owner =>
        (token, session, owner)

def NativeAuthSession.stamp (now : Instant) (sessionId : Nat) (session : NativeAuthSession) :
    NativeAuthSession :=
  if session.id == sessionId && session.revokedAt.isNone then
    { session with revokedAt := some now }
  else session

def NativeRefreshToken.stamp (now : Instant) (sessionId : Nat) (token : NativeRefreshToken) :
    NativeRefreshToken :=
  if token.sessionId == sessionId && token.revokedAt.isNone then
    { token with revokedAt := some now }
  else token

/-- `revoked_at` of the session and of its refresh tokens. -/
def revokeFamily (now : Instant) (sessionId : Nat) (db : AuthDb) :
    Except StoreError AuthDb := do
  raiseFirst [
    (db.sessions.rows.any (fun session => session.id == sessionId &&
      session.revokedAt.isNone && decide (now < session.createdAt)), .integrity),
    (db.tokens.rows.any (fun token => token.sessionId == sessionId &&
      token.revokedAt.isNone && decide (now < token.createdAt)), .integrity)]
  return { db with
    sessions := { db.sessions with rows := db.sessions.rows.map (·.stamp now sessionId) }
    tokens := { db.tokens with rows := db.tokens.rows.map (·.stamp now sessionId) } }

def refreshDenied (now : Instant) (refreshTokenHash : Hash) (token : NativeRefreshToken)
    (session : NativeAuthSession) : NativeAuditEvent where
  ownerId := session.ownerId
  actorSubjectHash := refreshTokenHash
  action := "auth.native_refresh.denied"
  aggregateId := session.id
  outcome := .denied
  reason :=
    if token.consumedAt.isSome then .conflict
    else if token.expiresAt ≤ now then .expired else .revoked
  authenticated := false
  replayed := token.consumedAt.isSome

def refreshSucceeded (refreshTokenHash : Hash) (session : NativeAuthSession) :
    NativeAuditEvent where
  ownerId := session.ownerId
  actorSubjectHash := refreshTokenHash
  action := "auth.native_refresh.succeeded"
  aggregateId := session.id
  outcome := .succeeded
  reason := .none
  authenticated := true
  replayed := false

def refreshRefused (now : Instant) (token : NativeRefreshToken) (session : NativeAuthSession) :
    Bool :=
  token.consumedAt.isSome || token.revokedAt.isSome || decide (token.expiresAt ≤ now) ||
    session.revokedAt.isSome

def rotateTokens (lifetimes : NativeLifetimes) (now : Instant) (token : NativeRefreshToken)
    (session : NativeAuthSession) (owner : Owner) (accessTokenHash refreshTokenHash : Hash)
    (db : AuthDb) : PersistedNativeSession × AuthDb :=
  let (refresh, tokens) := db.tokens.insert fun id =>
    ⟨id, session.id, refreshTokenHash, now + lifetimes.refresh, none, none, none, now⟩
  let tokens := tokens.replace NativeRefreshToken.id
    { token with consumedAt := some now, replacedById := some refresh.id }
  let rotated := { session with
    accessTokenHash := accessTokenHash, accessExpiresAt := now + lifetimes.access }
  (⟨session.id, session.ownerId, owner.githubUserId, owner.githubLogin, accessTokenHash,
      rotated.accessExpiresAt, refreshTokenHash, refresh.expiresAt, rotated.revokedAt⟩,
    { db with
      sessions := db.sessions.replace NativeAuthSession.id rotated
      tokens := tokens
      audit := db.audit ++ [refreshSucceeded token.tokenHash session] })

def rotateNativeRefreshToken (lifetimes : NativeLifetimes) (now : Instant)
    (refreshTokenHash newAccessTokenHash newRefreshTokenHash : Hash) (db : AuthDb) :
    Except StoreError (Option PersistedNativeSession × AuthDb) := do
  let row ← oneOrNone (refreshRows refreshTokenHash db)
  match row with
  | none => return (none, db)
  | some (token, session, owner) =>
    if refreshRefused now token session then
      let db ←
        if token.consumedAt.isSome && session.revokedAt.isNone then
          revokeFamily now session.id db
        else .ok db
      return (none, db.record (refreshDenied now refreshTokenHash token session))
    else
      raiseFirst [
        (db.tokens.rows.any (fun other => other.tokenHash == newRefreshTokenHash), .integrity),
        (decide (now < token.createdAt), .integrity),
        (db.sessions.rows.any (fun other => other.id != session.id &&
          other.accessTokenHash == newAccessTokenHash), .integrity),
        (decide (now + lifetimes.access ≤ session.createdAt), .integrity)]
      let (result, db) := rotateTokens lifetimes now token session owner newAccessTokenHash
        newRefreshTokenHash db
      return (some result, db)

def activeRows (now : Instant) (wanted : NativeAuthSession → Bool) (db : AuthDb) :
    List (NativeAuthSession × NativeRefreshToken) :=
  (db.sessions.rows.filter fun session =>
      wanted session && session.revokedAt.isNone && decide (now < session.accessExpiresAt)).flatMap
    fun session =>
      (db.tokens.rows.filter fun token =>
        token.sessionId == session.id && token.consumedAt.isNone && token.revokedAt.isNone &&
          decide (now < token.expiresAt)).map fun token => (session, token)

def findActiveNativeSession (now : Instant) (accessTokenHash : Hash) (db : AuthDb) :
    Except StoreError (Option PersistedNativeSession) := do
  let rows := (activeRows now (fun session => session.accessTokenHash == accessTokenHash)
    db).flatMap fun (session, token) =>
      (db.owners.rows.filter fun owner => owner.id == session.ownerId).map fun owner =>
        (⟨session.id, session.ownerId, owner.githubUserId, owner.githubLogin,
          session.accessTokenHash, session.accessExpiresAt, token.tokenHash, token.expiresAt,
          session.revokedAt⟩ : PersistedNativeSession)
  oneOrNone rows

def isNativeSessionActive (now : Instant) (sessionId : Nat) (db : AuthDb) :
    Except StoreError Bool := do
  let row ← oneOrNone (activeRows now (fun session => session.id == sessionId) db)
  return row.isSome

def revokeSucceeded (refreshTokenHash : Hash) (session : NativeAuthSession) :
    NativeAuditEvent where
  ownerId := session.ownerId
  actorSubjectHash := refreshTokenHash
  action := "auth.native_revoke.succeeded"
  aggregateId := session.id
  outcome := if session.revokedAt.isSome then .noop else .succeeded
  reason := if session.revokedAt.isSome then .revoked else .none
  authenticated := session.revokedAt.isNone
  replayed := false

def revokeNativeSession (now : Instant) (refreshTokenHash : Hash) (db : AuthDb) :
    Except StoreError (Bool × AuthDb) := do
  let rows :=
    (db.tokens.rows.filter fun token => token.tokenHash == refreshTokenHash).flatMap fun token =>
      db.sessions.rows.filter fun session => session.id == token.sessionId
  match ← oneOrNone rows with
  | none => return (false, db)
  | some session =>
    let db ← revokeFamily now session.id db
    return (true, db.record (revokeSucceeded refreshTokenHash session))

/-! ## Calls in any order -/

inductive NativeCall
  | createExchange (githubUserId : Nat) (githubLogin : String) (codeHash : Hash)
      (pkceChallenge : String)
  | deleteExpired
  | exchange (codeHash : Hash) (pkceChallenge : String)
      (accessTokenHash refreshTokenHash : Hash)
  | rotate (refreshTokenHash newAccessTokenHash newRefreshTokenHash : Hash)
  | revoke (refreshTokenHash : Hash)
  | find (accessTokenHash : Hash)
  | isActive (sessionId : Nat)

def NativeCall.secrets : NativeCall → List Hash
  | .createExchange _ _ codeHash _ => [codeHash]
  | .exchange _ _ access refresh => [access, refresh]
  | .rotate _ access refresh => [access, refresh]
  | .deleteExpired | .revoke _ | .find _ | .isActive _ => []

inductive Reply
  | done
  | session (result : Option PersistedNativeSession)
  | flag (value : Bool)

def perform (lifetimes : NativeLifetimes) (now : Instant) (call : NativeCall) (db : AuthDb) :
    Except StoreError (Reply × AuthDb) :=
  match call with
  | .createExchange userId login codeHash challenge =>
    (createNativeExchange lifetimes now userId login codeHash challenge db).map (.done, ·)
  | .deleteExpired => .ok (.done, deleteExpiredCodes now db)
  | .exchange codeHash challenge access refresh =>
    (consumeNativeExchangeAndCreateSession lifetimes now codeHash challenge access refresh
      db).map fun (result, db) => (.session result, db)
  | .rotate refresh newAccess newRefresh =>
    (rotateNativeRefreshToken lifetimes now refresh newAccess newRefresh db).map
      fun (result, db) => (.session result, db)
  | .revoke refresh =>
    (revokeNativeSession now refresh db).map fun (found, db) => (.flag found, db)
  | .find access => (findActiveNativeSession now access db).map (.session ·, db)
  | .isActive sessionId => (isNativeSessionActive now sessionId db).map (.flag ·, db)

/-- The tables, with the secrets made so far and the last time of the database. -/
structure Native where
  db : AuthDb
  secrets : List Hash
  clock : Instant

structure NativeEvent where
  now : Instant
  call : NativeCall
  reply : Except StoreError Reply

/-- The tables after a transaction. -/
def committed (db : AuthDb) : Except StoreError (Reply × AuthDb) → AuthDb
  | .ok (_, written) => written
  | .error _ => db

/-- One call, at a time that does not go back and with secrets made for it. -/
inductive NativeStep (lifetimes : NativeLifetimes) : Native → NativeEvent → Native → Prop
  | called {native : Native} {now : Instant} {call : NativeCall}
      (later : native.clock ≤ now) (distinct : call.secrets.Nodup)
      (fresh : ∀ secret ∈ call.secrets, secret ∉ native.secrets) :
      NativeStep lifetimes native
        ⟨now, call, (perform lifetimes now call native.db).map Prod.fst⟩
        ⟨committed native.db (perform lifetimes now call native.db),
          native.secrets ++ call.secrets, now⟩

def emptyNative (clock : Instant) : Native where
  db := ⟨.empty, .empty, .empty, .empty, []⟩
  secrets := []
  clock := clock

end TamForge.Auth
