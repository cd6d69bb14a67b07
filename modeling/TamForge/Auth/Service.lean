import TamForge.Auth.Crypto
import TamForge.Models.Text

/-!
# Credentials

The checks of `auth/service.py` on the text a client sends, and what
`auth/crypto.py` does with it.  `str.isalnum` is the parameter `alnum`.
-/

namespace TamForge.Auth

open Models ProofSupport

/-- The errors that a credential can raise: two kinds of `AuthError`,
`InvalidOAuthState`, the `ValueError` of `hash_secret`, the `TypeError` of
`compare_digest` and the `UnicodeEncodeError` of `encode`. -/
inductive CredentialError
  | unauthenticated (message : String)
  | csrfRejected (message : String)
  | invalidOAuthState (message : String)
  | invalidSecret
  | typeError
  | unicodeEncodeError
deriving DecidableEq

/-- `AuthError` or `InvalidOAuthState` -/
def CredentialError.isRefusal : CredentialError → Bool
  | unauthenticated _ | csrfRejected _ | invalidOAuthState _ => true
  | invalidSecret | typeError | unicodeEncodeError => false

def hashSecret (rawSecret : PyString) : Except CredentialError Digest := do
  raiseFirst [
    (!(decide (1 ≤ rawSecret.length) && decide (rawSecret.length ≤ 512)), .invalidSecret)]
  match rawSecret.encodeUtf8 with
  | none => .error .unicodeEncodeError
  | some bytes => .ok (sha256 bytes)

/-- What `verify` raises. -/
def StateError.raised : StateError → CredentialError
  | invalid => .invalidOAuthState "OAuth state is invalid"
  | notAscii => .typeError

/-- `verify` on any two texts.  After the comparison only ASCII is left, which
is what `verify` reads as a `String`. -/
def verifyText (manager : OAuthStateManager) (now : Int) (state stateCookie : Option PyString) :
    Except CredentialError Unit :=
  match state, stateCookie with
  | some state, some stateCookie => do
      raiseFirst [
        (!(decide (1 ≤ state.length) && decide (state.length ≤ 256)), StateError.invalid.raised),
        (!(decide (1 ≤ stateCookie.length) && decide (stateCookie.length ≤ 256)),
          StateError.invalid.raised),
        (!(state.isAscii && stateCookie.isAscii), StateError.notAscii.raised)]
      (verify manager now (some state.toText) (some stateCookie.toText)).mapError StateError.raised
  | _, _ => .error StateError.invalid.raised

/-- `char.isalnum() or char in extra` -/
def isTokenChar (alnum : IsAlnum) (extra : String) (c : CodePoint) : Bool :=
  alnum.test c || (PyString.ofString extra).contains c

/-- `len(text) == 43`, and letters, digits, `-` and `_` only. -/
def isToken (alnum : IsAlnum) (text : PyString) : Bool :=
  text.length == 43 && text.all (isTokenChar alnum "-_")

/-- The sextets of a digest, from the first on; the last one has two bits of
padding. -/
def sextets (digest : Digest) : List Nat :=
  (List.range 43).map fun i => digest.toNat * 4 / 64 ^ (42 - i) % 64

/-- The alphabet of `urlsafe_b64encode`. -/
def base64urlChar (sextet : Nat) : CodePoint :=
  if sextet < 26 then Fin.ofNat _ (0x41 + sextet)
  else if sextet < 52 then Fin.ofNat _ (0x61 + (sextet - 26))
  else if sextet < 62 then Fin.ofNat _ (0x30 + (sextet - 52))
  else if sextet = 62 then 0x2D
  else 0x5F

/-- `urlsafe_b64encode(digest).rstrip(b"=").decode("ascii")` -/
def urlsafeDigest (digest : Digest) : PyString := (sextets digest).map base64urlChar

def pkceChallenge (alnum : IsAlnum) (codeVerifier : Option PyString) :
    Except CredentialError PyString :=
  match codeVerifier with
  | none => .error (.unauthenticated "native authentication failed")
  | some codeVerifier => do
      raiseFirst [
        (!(decide (43 ≤ codeVerifier.length) && decide (codeVerifier.length ≤ 128)),
          .unauthenticated "native authentication failed"),
        (!codeVerifier.all (isTokenChar alnum "-._~"),
          .unauthenticated "native authentication failed")]
      match codeVerifier.encodeAscii with
      | none => .error .unicodeEncodeError
      | some bytes => .ok (urlsafeDigest (sha256 bytes))

def looksLikeNativeState (alnum : IsAlnum) (state : Option PyString) : Bool :=
  state.any (isToken alnum)

def validatePkceChallenge (alnum : IsAlnum) (challenge : PyString) :
    Except CredentialError Unit :=
  raiseFirst [(!isToken alnum challenge, .unauthenticated "native authentication failed")]

/-- What the two secret hashes do with a secret that is refused with `error`. -/
def secretHash (alnum : IsAlnum) (error : CredentialError) (raw : Option PyString) :
    Except CredentialError Digest :=
  match raw with
  | none => .error error
  | some raw => do
      raiseFirst [(!isToken alnum raw, error)]
      hashSecret raw

def nativeSecretHash (alnum : IsAlnum) (raw : Option PyString) (stateError : Bool) :
    Except CredentialError Digest :=
  secretHash alnum (if stateError then .invalidOAuthState "native OAuth state is invalid"
    else .unauthenticated "native authentication failed") raw

def browserSecretHash (alnum : IsAlnum) (raw : Option PyString) (csrf : Bool) :
    Except CredentialError Digest :=
  secretHash alnum (if csrf then .csrfRejected "CSRF validation failed"
    else .unauthenticated "authentication required") raw

/-- The constraint `pkce_challenge_s256`: 43 characters of `[A-Za-z0-9_-]`. -/
def pkceChallengeS256 (challenge : PyString) : Bool :=
  challenge.length == 43 &&
    challenge.all fun c => c.isAsciiAlnum || (PyString.ofString "_-").contains c

end TamForge.Auth
