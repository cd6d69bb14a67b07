import TamForge.Auth.Proofs.SingleUse
import TamForge.Auth.Service

/-!
# Malformed credentials

What each check lets through, over all code points: `str.isalnum` accepts
letters and digits beyond ASCII, and the steps behind some of the checks take
ASCII only.
-/

namespace TamForge.Auth

open Models ProofSupport

variable {alnum : IsAlnum} {manager : OAuthStateManager} {now : Int} {text : PyString}

theorem isTokenChar_ascii {extra : String} {c : CodePoint} (hc : c.isAscii = true) :
    isTokenChar alnum extra c = (c.isAsciiAlnum || (PyString.ofString extra).contains c) := by
  rw [isTokenChar, alnum.ascii c hc]

theorem isAscii_of_mem_dashes {c : CodePoint}
    (h : (PyString.ofString "-_").contains c = true) : c.isAscii = true := by
  have hall : (PyString.ofString "-_").isAscii = true := by decide
  exact List.all_eq_true.mp hall c (List.contains_iff_mem.mp h)

theorem not_isSurrogate_of_isTokenChar {c : CodePoint} (h : isTokenChar alnum "-_" c = true) :
    c.isSurrogate = false := by
  rw [isTokenChar, Bool.or_eq_true] at h
  cases hsurrogate : c.isSurrogate with
  | false => rfl
  | true =>
    rcases h with halnum | hextra
    · rw [alnum.surrogate c hsurrogate] at halnum
      cases halnum
    · rw [CodePoint.not_isSurrogate_of_isAscii (isAscii_of_mem_dashes hextra)] at hsurrogate
      cases hsurrogate

theorem pkceChallengeS256_iff (htok : isToken alnum text = true) :
    pkceChallengeS256 text = true ↔ text.isAscii = true := by
  rw [isToken, Bool.and_eq_true, List.all_eq_true] at htok
  rw [pkceChallengeS256, htok.1, Bool.true_and, List.all_eq_true, PyString.isAscii,
    List.all_eq_true]
  constructor
  · intro hchars c hc
    have hchar := hchars c hc
    rw [Bool.or_eq_true] at hchar
    rcases hchar with halnum | hdash
    · exact CodePoint.isAscii_of_isAsciiAlnum halnum
    · have hall : (PyString.ofString "_-").isAscii = true := by decide
      exact List.all_eq_true.mp hall c (List.contains_iff_mem.mp hdash)
  · intro hascii c hc
    have hchar := htok.2 c hc
    rw [isTokenChar_ascii (hascii c hc), Bool.or_eq_true] at hchar
    have hswap : (PyString.ofString "_-").contains c = (PyString.ofString "-_").contains c := by
      rw [show PyString.ofString "_-" = (PyString.ofString "-_").reverse from by decide,
        List.contains_reverse]
    rw [Bool.or_eq_true, hswap]
    exact hchar

/-! ## States -/

theorem toNat_toChar {c : CodePoint} (hc : c.isAscii = true) : c.toChar.toNat = c.val := by
  rw [CodePoint.isAscii, decide_eq_true_eq] at hc
  have hval : c.val.isValidChar := Or.inl (by omega)
  rw [CodePoint.toChar, Char.ofNat, dif_pos hval]
  rfl

theorem isAscii_toText (h : text.isAscii = true) : isAscii text.toText = true := by
  rw [isAscii, PyString.toText, String.toList_ofList, List.all_map, List.all_eq_true]
  rw [PyString.isAscii, List.all_eq_true] at h
  intro c hc
  have hlt := h c hc
  rw [Function.comp_apply, toNat_toChar hlt]
  exact hlt

theorem checkParts_raises (parts : List (List Char)) :
    Raises (· = .invalid) (checkParts manager now parts) := by
  rw [checkParts.eq_def]
  split
  · refine Raises.guard (P := (· = StateError.invalid)) (by simp) ?_
    split
    · exact raises_error rfl
    · exact raises_raiseFirst (by simp)
  · exact raises_error rfl

theorem verify_raises {state stateCookie : PyString} (hst : state.isAscii = true)
    (hcookie : stateCookie.isAscii = true) :
    Raises (· = .invalid) (verify manager now (some state.toText) (some stateCookie.toText)) := by
  rw [verify]
  refine Raises.bind ?_ fun _ _ => checkParts_raises _
  intro error herr
  have hmem := raiseFirst_error herr
  rw [isAscii_toText hst, isAscii_toText hcookie] at hmem
  simp only [Bool.and_self, Bool.not_true, List.mem_cons, Prod.mk.injEq, Bool.true_eq_false,
    false_and, false_or, List.not_mem_nil, or_false] at hmem
  rcases hmem with ⟨-, rfl⟩ | ⟨-, rfl⟩ | ⟨-, rfl⟩ <;> rfl

/-- The texts that `verify` compares are ASCII. -/
def AsciiStates (state stateCookie : Option PyString) : Prop :=
  ∀ s ∈ state, ∀ c ∈ stateCookie, (1 ≤ s.length ∧ s.length ≤ 256) →
    (1 ≤ c.length ∧ c.length ≤ 256) → s.isAscii = true ∧ c.isAscii = true

theorem verifyText_refuses_iff (manager : OAuthStateManager) (now : Int)
    (state stateCookie : Option PyString) :
    Raises (· = StateError.invalid.raised) (verifyText manager now state stateCookie) ↔
      AsciiStates state stateCookie := by
  cases state with
  | none =>
    constructor
    · intro _ s hs
      cases hs
    · exact fun _ => raises_error rfl
  | some state =>
    cases stateCookie with
    | none =>
      constructor
      · intro _ s _ c hc
        cases hc
      · exact fun _ => raises_error rfl
    | some cookie =>
      rw [verifyText, raises_guard_cons, raises_guard_cons, raises_guard_cons]
      have hnever : StateError.notAscii.raised ≠ StateError.invalid.raised := by decide
      simp only [Bool.not_eq_true', Bool.not_eq_false', Bool.and_eq_true, decide_eq_true_eq,
        implies_true, true_and, hnever, imp_false, Bool.not_eq_false]
      constructor
      · intro h s hs c hc hslength hclength
        cases hs
        cases hc
        exact (h hslength hclength).1
      · intro hascii hslength hclength
        have hboth := hascii state rfl cookie rfl hslength hclength
        refine ⟨hboth, fun _ => raises_mapError ?_⟩
        have hvfy := @verify_raises manager now _ _ hboth.1 hboth.2
        intro error herr
        rw [hvfy error herr]

/-! ## Challenges and secrets -/

theorem hashSecret_ok (htok : isToken alnum text = true) :
    ∃ digest, hashSecret text = .ok digest := by
  rw [isToken, Bool.and_eq_true, beq_iff_eq, List.all_eq_true] at htok
  have hencoded : text.any CodePoint.isSurrogate = false := by
    rw [List.any_eq_false]
    intro c hc
    rw [not_isSurrogate_of_isTokenChar (htok.2 c hc)]
    exact Bool.false_ne_true
  rw [hashSecret, PyString.encodeUtf8, hencoded, htok.1]
  exact ⟨_, rfl⟩

theorem secretHash_refuses {error : CredentialError} (herr : error.isRefusal = true)
    (raw : Option PyString) : Raises (·.isRefusal = true) (secretHash alnum error raw) := by
  cases raw with
  | none => exact raises_error herr
  | some raw =>
    rw [secretHash, raises_guard_cons]
    refine ⟨fun _ => herr, fun htok => ?_⟩
    obtain ⟨digest, hdigest⟩ := hashSecret_ok (by simpa using htok)
    show Raises _ (hashSecret raw)
    rw [hdigest]
    exact raises_ok digest

theorem nativeSecretHash_refuses (raw : Option PyString) (stateError : Bool) :
    Raises (·.isRefusal = true) (nativeSecretHash alnum raw stateError) := by
  apply secretHash_refuses
  cases stateError <;> rfl

theorem browserSecretHash_refuses (raw : Option PyString) (csrf : Bool) :
    Raises (·.isRefusal = true) (browserSecretHash alnum raw csrf) := by
  apply secretHash_refuses
  cases csrf <;> rfl

def AsciiVerifier (alnum : IsAlnum) (codeVerifier : Option PyString) : Prop :=
  ∀ v ∈ codeVerifier, (43 ≤ v.length ∧ v.length ≤ 128) →
    v.all (isTokenChar alnum "-._~") = true → v.isAscii = true

theorem pkceChallenge_refuses_iff (codeVerifier : Option PyString) :
    Raises (·.isRefusal = true) (pkceChallenge alnum codeVerifier) ↔
      AsciiVerifier alnum codeVerifier := by
  cases codeVerifier with
  | none =>
    constructor
    · intro _ v hv
      cases hv
    · exact fun _ => raises_error rfl
  | some verifier =>
    rw [pkceChallenge, raises_guard_cons, raises_guard_cons]
    simp only [CredentialError.isRefusal, implies_true, true_and, Bool.not_eq_false',
      Bool.and_eq_true, decide_eq_true_eq]
    constructor
    · intro h v hv hlen hchars
      cases hv
      by_contra hascii
      have hraises := h hlen hchars
      rw [PyString.encodeAscii, if_neg hascii] at hraises
      cases hraises _ rfl
    · intro hascii hlen hchars
      rw [PyString.encodeAscii, if_pos (hascii verifier rfl hlen hchars)]
      exact raises_ok _

theorem validatePkceChallenge_ok_iff (chal : PyString) :
    validatePkceChallenge alnum chal = .ok () ↔ isToken alnum chal = true := by
  rw [validatePkceChallenge]
  cases isToken alnum chal <;> simp [raiseFirst]

/-! ## Every credential at once -/

/-- A text of each kind that a client may send. -/
structure Credentials where
  state : Option PyString
  stateCookie : Option PyString
  codeVerifier : Option PyString
  nativeSecret : Option PyString
  browserSecret : Option PyString
  challenge : PyString

structure Credentials.Refused (credentials : Credentials) (alnum : IsAlnum)
    (manager : OAuthStateManager) (now : Int) : Prop where
  state : Raises (· = StateError.invalid.raised)
    (verifyText manager now credentials.state credentials.stateCookie)
  codeVerifier : Raises (·.isRefusal = true) (pkceChallenge alnum credentials.codeVerifier)
  nativeSecret : ∀ stateError,
    Raises (·.isRefusal = true) (nativeSecretHash alnum credentials.nativeSecret stateError)
  browserSecret : ∀ csrf,
    Raises (·.isRefusal = true) (browserSecretHash alnum credentials.browserSecret csrf)
  challenge : Raises (·.isRefusal = true) (validatePkceChallenge alnum credentials.challenge)
  stored : validatePkceChallenge alnum credentials.challenge = .ok () →
    pkceChallengeS256 credentials.challenge = true

structure Credentials.Ascii (credentials : Credentials) (alnum : IsAlnum) : Prop where
  states : AsciiStates credentials.state credentials.stateCookie
  codeVerifier : AsciiVerifier alnum credentials.codeVerifier
  challenge : isToken alnum credentials.challenge = true → credentials.challenge.isAscii = true

/-- Malformed credentials are refused exactly where no text beyond ASCII gets
past the length and alphabet checks. -/
theorem credentials_refused_iff (credentials : Credentials) (alnum : IsAlnum)
    (manager : OAuthStateManager) (now : Int) :
    credentials.Refused alnum manager now ↔ credentials.Ascii alnum := by
  constructor
  · intro h
    refine ⟨(verifyText_refuses_iff ..).mp h.state, (pkceChallenge_refuses_iff _).mp h.codeVerifier,
      fun htoken => ?_⟩
    exact (pkceChallengeS256_iff htoken).mp
      (h.stored ((validatePkceChallenge_ok_iff _).mpr htoken))
  · intro h
    refine ⟨(verifyText_refuses_iff ..).mpr h.states,
      (pkceChallenge_refuses_iff _).mpr h.codeVerifier, nativeSecretHash_refuses _,
      browserSecretHash_refuses _, raises_raiseFirst (by simp [CredentialError.isRefusal]),
      fun haccepted => ?_⟩
    have htoken := (validatePkceChallenge_ok_iff _).mp haccepted
    exact (pkceChallengeS256_iff htoken).mpr (h.challenge htoken)

def latin1Signs : List Nat := [0xAA, 0xB2, 0xB3, 0xB5, 0xB9, 0xBA, 0xBC, 0xBD, 0xBE]

theorem latin1Signs_outside {n : Nat} (h : n < 0xAA ∨ 0xBE < n) :
    latin1Signs.contains n = false := by
  rw [← Bool.not_eq_true, List.contains_iff_mem]
  simp only [latin1Signs, List.mem_cons, List.not_mem_nil, or_false]
  omega

theorem latin1_of_ascii {c : CodePoint} (hc : c.isAscii = true) :
    latin1Signs.contains c.val = false ∧ decide (0xC0 ≤ c.val) = false := by
  rw [CodePoint.isAscii, decide_eq_true_eq] at hc
  refine ⟨latin1Signs_outside (by omega), ?_⟩
  rw [decide_eq_false_iff_not]
  omega

theorem latin1_of_surrogate {c : CodePoint} (hc : c.isSurrogate = true) :
    c.isAsciiAlnum = false ∧ latin1Signs.contains c.val = false ∧
      decide (c.val ≤ 0xFF) = false := by
  simp only [CodePoint.isSurrogate, Bool.and_eq_true, decide_eq_true_eq] at hc
  refine ⟨?_, latin1Signs_outside (by omega), ?_⟩
  · simp only [CodePoint.isAsciiAlnum, Bool.or_eq_false_iff, Bool.and_eq_false_iff,
      decide_eq_false_iff_not]
    omega
  · rw [decide_eq_false_iff_not]
    omega

/-- `str.isalnum` on Latin-1; further code points do not occur below. -/
def latin1Alnum : IsAlnum where
  test c := c.isAsciiAlnum || latin1Signs.contains c.val ||
    (decide (0xC0 ≤ c.val) && decide (c.val ≤ 0xFF) && c.val != 0xD7 && c.val != 0xF7)
  ascii c hc := by
    rw [(latin1_of_ascii hc).1, (latin1_of_ascii hc).2, Bool.or_false, Bool.false_and,
      Bool.false_and, Bool.false_and, Bool.or_false]
  surrogate c hc := by
    obtain ⟨halnum, hsigns, hletter⟩ := latin1_of_surrogate hc
    rw [halnum, hletter, hsigns, Bool.and_false, Bool.false_and, Bool.false_and, Bool.or_false,
      Bool.or_false]

/-- Text that passes every length check, of the letter é only. -/
def accents : PyString := List.replicate 43 0xE9

def accentCredentials : Credentials where
  state := some accents
  stateCookie := some accents
  codeVerifier := some accents
  nativeSecret := none
  browserSecret := none
  challenge := accents

/-- The comparison raises `TypeError`, the encoding `UnicodeEncodeError`, and the
table refuses the accepted challenge. -/
theorem accents_crash :
    ¬ accentCredentials.Refused latin1Alnum sampleManager 0 ∧
      verifyText sampleManager 0 (some accents) (some accents) = .error .typeError ∧
      pkceChallenge latin1Alnum (some accents) = .error .unicodeEncodeError ∧
      validatePkceChallenge latin1Alnum accents = .ok () ∧
      pkceChallengeS256 accents = false := by
  have hverify : verifyText sampleManager 0 (some accents) (some accents) = .error .typeError := by
    decide +kernel
  refine ⟨fun h => ?_, hverify, ?_, ?_, ?_⟩
  · have hraised := h.state _ hverify
    cases hraised
  · decide +kernel
  · decide +kernel
  · decide +kernel

end TamForge.Auth
