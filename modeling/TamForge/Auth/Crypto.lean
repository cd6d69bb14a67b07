import TamForge.Models.Base
import TamForge.ProofSupport.Checks
import TamForge.ProofSupport.Run

/-!
# Browser sign-in states

`auth/crypto.py`: the signed states of a browser sign-in and the bounded cache
of those already consumed.  Digests are compared by value, so the cache holds
the states themselves; a clock reading is the whole second that `int` leaves of
the timestamp.
-/

namespace TamForge.Auth

open Models ProofSupport

/-- The alphabet of `secrets.token_urlsafe`, which is also what `verify` takes. -/
def isNonceChar (c : Char) : Bool :=
  c.isAlphanum || c == '-' || c == '_'

def isNonce (nonce : List Char) : Bool :=
  nonce.length == 43 && nonce.all isNonceChar

def isHexChar (c : Char) : Bool :=
  c.isDigit || (decide ('a' ≤ c) && decide (c ≤ 'f'))

/-- `hexdigest` of a SHA-256 digest. -/
def isHexDigest (digest : String) : Bool :=
  digest.length == 64 && digest.toList.all isHexChar

/-- The settings of an `OAuthStateManager`; `mac` is the keyed digest in
hexadecimal. -/
structure OAuthStateManager where
  mac : String → String
  mac_hex : ∀ payload, isHexDigest (mac payload) = true
  ttlSeconds : Nat
  ttl_min : 60 ≤ ttlSeconds
  ttl_max : ttlSeconds ≤ 600
  maxConsumedStates : Nat
  max_pos : 1 ≤ maxConsumedStates
  max_le : maxConsumedStates ≤ 4096

def maxClockSkewSeconds : Nat := 30

/-- `InvalidOAuthState`, or the `TypeError` of `compare_digest` on text that is
not ASCII. -/
inductive StateError
  | invalid
  | notAscii

/-- The text before the signature. -/
def statePayload (issuedAt : Int) (nonce : String) : String :=
  String.ofList ("v1".toList ++ '.' :: (toString issuedAt).toList ++ '.' :: nonce.toList)

/-- The state that `issue` returns for this clock reading and this nonce. -/
def issue (manager : OAuthStateManager) (now : Int) (nonce : String) : String :=
  String.ofList ((statePayload now nonce).toList ++
    '.' :: (manager.mac (statePayload now nonce)).toList)

def isAscii (text : String) : Bool :=
  text.toList.all fun c => decide (c.toNat < 128)

def strip (text : List Char) : List Char :=
  ((text.dropWhile isSpace).reverse.dropWhile isSpace).reverse

/-- A numeral without sign; single underscores may stand between its digits. -/
def readNat (text : List Char) : Option Nat :=
  let groups := text.splitOn '_'
  if groups.all fun group => !group.isEmpty && group.all Char.isDigit then
    some (Nat.ofDigitChars 10 groups.flatten 0)
  else none

/-- `int(text)` for ASCII text. -/
def readInt (text : List Char) : Option Int :=
  match strip text with
  | '+' :: digits => (readNat digits).map fun n => (n : Int)
  | '-' :: digits => (readNat digits).map fun n => -(n : Int)
  | digits => (readNat digits).map fun n => (n : Int)

/-- What `verify` asks of the text before it splits it. -/
def checkCookie (state stateCookie : String) : Except StateError Unit :=
  raiseFirst [
    (!(decide (1 ≤ state.length) && decide (state.length ≤ 256)), .invalid),
    (!(decide (1 ≤ stateCookie.length) && decide (stateCookie.length ≤ 256)), .invalid),
    (!(isAscii state && isAscii stateCookie), .notAscii),
    (state != stateCookie, .invalid)]

/-- What `verify` asks of the four parts. -/
def checkParts (manager : OAuthStateManager) (now : Int) :
    List (List Char) → Except StateError Unit
  | [version, rawIssuedAt, nonce, suppliedSignature] => do
      raiseFirst [(version != "v1".toList, .invalid), (!isNonce nonce, .invalid)]
      match readInt rawIssuedAt with
      | none => .error .invalid
      | some issuedAt =>
        let payload := String.ofList (version ++ '.' :: rawIssuedAt ++ '.' :: nonce)
        raiseFirst [
          (String.ofList suppliedSignature != manager.mac payload, .invalid),
          (decide (now + maxClockSkewSeconds < issuedAt) ||
            decide (manager.ttlSeconds < now - issuedAt), .invalid)]
  | _ => .error .invalid

def verify (manager : OAuthStateManager) (now : Int) (state stateCookie : Option String) :
    Except StateError Unit :=
  match state, stateCookie with
  | some state, some stateCookie => do
      checkCookie state stateCookie
      checkParts manager now (state.toList.splitOn '.')
  | _, _ => .error .invalid

/-- `_consumed_until`, oldest first. -/
abbrev Consumed := List (String × Int)

def removeExpired (now : Int) (consumed : Consumed) : Consumed :=
  consumed.filter fun entry => !decide (entry.2 < now)

/-- The cache after a new entry, the oldest one evicted at capacity. -/
def remember (manager : OAuthStateManager) (now : Int) (state : String)
    (consumed : Consumed) : Consumed :=
  let kept := if manager.maxConsumedStates ≤ consumed.length then consumed.drop 1 else consumed
  kept ++ [(state, now + manager.ttlSeconds)]

/-- `consume`, which reads the clock in `verify` and once more for the cache.
The expired entries go whether or not the state is taken. -/
def consume (manager : OAuthStateManager) (verifiedAt now : Int)
    (state stateCookie : Option String) (consumed : Consumed) :
    Except StateError Unit × Consumed :=
  match verify manager verifiedAt state stateCookie, state with
  | .error error, _ => (.error error, consumed)
  | .ok (), none => (.ok (), consumed)
  | .ok (), some state =>
    let fresh := removeExpired now consumed
    if fresh.any (fun entry => entry.1 == state) then (.error .invalid, fresh)
    else (.ok (), remember manager now state fresh)

/-! ## Calls on one manager -/

/-- The cache, with the states issued so far and the last reading of the clock. -/
structure SignIns where
  consumed : Consumed
  issued : List (Int × String)
  clock : Int

inductive SignInEvent
  | issued (now : Int) (nonce : String)
  | consumed (verifiedAt now : Int) (state stateCookie : Option String)

/-- One call.  Its clock readings do not go back, nonces are distinct, and a
state that passes the checks of `verify` was issued before, as no one else can
sign. -/
inductive SignInStep (manager : OAuthStateManager) : SignIns → SignInEvent → SignIns → Prop
  | issued {signIns : SignIns} {now : Int} {nonce : String} (later : signIns.clock ≤ now)
      (shape : isNonce nonce.toList = true)
      (fresh : ∀ other ∈ signIns.issued, other.2 ≠ nonce) :
      SignInStep manager signIns (.issued now nonce)
        { signIns with issued := signIns.issued ++ [(now, nonce)], clock := now }
  | consumed {signIns : SignIns} {verifiedAt now : Int} {state stateCookie : Option String}
      (later : signIns.clock ≤ verifiedAt) (passed : verifiedAt ≤ now)
      (unforged : verify manager verifiedAt state stateCookie = .ok () →
        ∃ call ∈ signIns.issued, state = some (issue manager call.1 call.2)) :
      SignInStep manager signIns (.consumed verifiedAt now state stateCookie)
        { signIns with
          consumed := (consume manager verifiedAt now state stateCookie signIns.consumed).2,
          clock := now }

end TamForge.Auth
