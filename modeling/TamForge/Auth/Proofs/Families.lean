import TamForge.Auth.Proofs.Sessions

/-!
# Families of native tokens

Every call has one of five effects on the tables.  From them follow, over every
run, that codes and refresh tokens work once, that only the newest access token
of a session is accepted, and that a revoked family stays closed.
-/

namespace TamForge.Auth

open Models ProofSupport

variable {lifetimes : NativeLifetimes} {native next : Native} {event : NativeEvent}

def NativeEvent.answer (event : NativeEvent) : Option PersistedNativeSession :=
  match event.reply with
  | .ok (.session result) => result
  | .ok .done | .ok (.flag _) | .error _ => none

def NativeEvent.issued (event : NativeEvent) : Option PersistedNativeSession :=
  match event.call with
  | .exchange _ _ _ _ | .rotate _ _ _ => event.answer
  | .createExchange _ _ _ _ | .deleteExpired | .revoke _ | .find _ | .isActive _ => none

def NativeEvent.accepted (event : NativeEvent) : Option (Nat × Hash) :=
  match event.call with
  | .rotate presented _ _ => event.answer.map fun session => (session.sessionId, presented)
  | .find presented => event.answer.map fun session => (session.sessionId, presented)
  | .createExchange _ _ _ _ | .deleteExpired | .exchange _ _ _ _ | .revoke _ | .isActive _ => none

/-- The code that the call turned into a session. -/
def NativeEvent.exchanged (event : NativeEvent) : Option (Hash × String) :=
  match event.call with
  | .exchange codeHash challenge _ _ => event.answer.map fun _ => (codeHash, challenge)
  | .createExchange _ _ _ _ | .deleteExpired | .rotate _ _ _ | .revoke _ | .find _
  | .isActive _ => none

def NativeEvent.rotated (event : NativeEvent) : Option Hash :=
  match event.call with
  | .rotate presented _ _ => event.answer.map fun _ => presented
  | .createExchange _ _ _ _ | .deleteExpired | .exchange _ _ _ _ | .revoke _ | .find _
  | .isActive _ => none

/-! ## The effect of a call -/

/-- What a call may do to the tables. -/
inductive Effect (lifetimes : NativeLifetimes) (db : AuthDb) (event : NativeEvent) :
    AuthDb → Prop
  | quiet (audit : List NativeAuditEvent) (issued : event.issued = none)
      (exchanged : event.exchanged = none) (rotated : event.rotated = none)
      (accepted : ∀ item, event.accepted = some item → ∃ session ∈ db.sessions.rows,
        session.id = item.1 ∧ session.accessTokenHash = item.2 ∧ session.revokedAt = none)
      (active : ∀ sessionId, event.call = .isActive sessionId → event.reply = .ok (.flag true) →
        ∃ session ∈ db.sessions.rows, session.id = sessionId ∧ session.revokedAt = none) :
      Effect lifetimes db event { db with audit := audit }
  | coded {owners : Serial Owner} {codes : Serial NativeExchangeCode}
      (call : (∃ userId login codeHash challenge,
        event.call = .createExchange userId login codeHash challenge ∧
          ∀ code ∈ codes.rows, code ∈ db.codes.rows ∨
            (code.codeHash = codeHash ∧ code.pkceChallenge = challenge)) ∨
        (event.call = .deleteExpired ∧ ∀ code ∈ codes.rows, code ∈ db.codes.rows)) :
      Effect lifetimes db event { db with owners := owners, codes := codes }
  | exchanged {code : NativeExchangeCode} (owner : Owner) {codeHash access refresh : Hash}
      {challenge : String}
      (call : event.call = .exchange codeHash challenge access refresh)
      (stored : code ∈ db.codes.rows)
      (usable : code.usable event.now codeHash challenge = true)
      (reply : event.reply = .ok (.session (some
        (createSession lifetimes event.now code owner access refresh db).1))) :
      Effect lifetimes db event
        (createSession lifetimes event.now code owner access refresh { db with
          codes := db.codes.replace NativeExchangeCode.id
            { code with consumedAt := some event.now } }).2
  | rotated {token : NativeRefreshToken} {session : NativeAuthSession} (owner : Owner)
      {access refresh : Hash} (call : event.call = .rotate token.tokenHash access refresh)
      (storedToken : token ∈ db.tokens.rows) (storedSession : session ∈ db.sessions.rows)
      (family : session.id = token.sessionId) (open_ : token.consumedAt = none)
      (alive : session.revokedAt = none)
      (reply : event.reply = .ok (.session (some
        (rotateTokens lifetimes event.now token session owner access refresh db).1))) :
      Effect lifetimes db event
        (rotateTokens lifetimes event.now token session owner access refresh db).2
  | revoked {sessionId : Nat} (audit : List NativeAuditEvent) (issued : event.issued = none)
      (exchanged : event.exchanged = none) (rotated : event.rotated = none)
      (accepted : event.accepted = none) (call : ∀ sessionId, event.call ≠ .isActive sessionId) :
      Effect lifetimes db event { stampFamily event.now sessionId db with audit := audit }

/-- Every call keeps the invariant and has one of the effects, and only the
creation of a code can be refused. -/
theorem NativeStep.effect (h : Sound native) (hstep : NativeStep lifetimes native event next) :
    Sound next ∧ Effect lifetimes native.db event next.db ∧
      ((∃ reply, event.reply = .ok reply) ∨
        ∃ userId login codeHash chal,
          event.call = .createExchange userId login codeHash chal) := by
  cases hstep with
  | @called now call later distinct fresh =>
    obtain ⟨db, secrets, clock⟩ := native
    have hsame : Sound ⟨db, secrets ++ call.secrets, now⟩ := h.later later _ _
    have hfreshAccess : ∀ access ∈ call.secrets, ∀ session ∈ db.sessions.rows,
        session.accessTokenHash ≠ access := by
      rintro access hacc session hsess rfl
      exact fresh _ hacc (h.sessionSecret session hsess).1
    have hnewTok : ∀ refresh ∈ call.secrets, ∀ token ∈ db.tokens.rows,
        token.tokenHash ≠ refresh := by
      rintro refresh hrefr token htok rfl
      exact fresh _ hrefr (h.tokenSecret token htok).1
    have hsecret : ∀ secret ∈ call.secrets, secret ∈ secrets ++ call.secrets :=
      fun secret hmem => List.mem_append_right _ hmem
    cases call with
    | createExchange userId login codeHash chal =>
      simp only [perform]
      cases hcre : createNativeExchange lifetimes now userId login codeHash chal db with
      | error error =>
        refine ⟨hsame, .quiet db.audit rfl rfl rfl ?_ ?_, Or.inr ⟨_, _, _, _, rfl⟩⟩
        · intro item hitem
          cases hitem
        · intro sessionId hcall
          cases hcall
      | ok after =>
        refine ⟨hsame.createExchange (hsecret _ (List.mem_singleton.mpr rfl)) hcre, ?_,
          Or.inl ⟨_, rfl⟩⟩
        simp only [createNativeExchange, bind_ok_iff] at hcre
        obtain ⟨_, -, ha⟩ := hcre
        cases ha
        refine .coded (Or.inl ⟨userId, login, codeHash, chal, rfl, ?_⟩)
        intro code hcode
        rcases List.mem_append.mp hcode with hold | hlast
        · exact Or.inl hold
        · rw [List.mem_singleton.mp hlast]
          exact Or.inr ⟨rfl, rfl⟩
    | deleteExpired =>
      refine ⟨hsame.deleteExpired, .coded (Or.inr ⟨rfl, ?_⟩), Or.inl ⟨_, rfl⟩⟩
      exact fun code hcode => List.mem_of_mem_filter hcode
    | exchange codeHash chal access refresh =>
      have hnewAcc := hfreshAccess access (List.mem_cons_self ..)
      have hnewRefr := hnewTok refresh (by simp [NativeCall.secrets])
      have hacc := hsecret access (List.mem_cons_self ..)
      have hrefr := hsecret refresh (by simp [NativeCall.secrets])
      rcases exchange_cases lifetimes codeHash chal hsame hnewAcc hnewRefr with
        ⟨audit, hres⟩ | ⟨code, owner, hcode, husable, hres⟩
      · simp only [perform, hres]
        refine ⟨hsame.record audit, .quiet audit rfl rfl rfl ?_ ?_, Or.inl ⟨_, rfl⟩⟩
        · intro item hitem
          cases hitem
        · intro sessionId hcall
          cases hcall
      · simp only [perform, hres]
        refine ⟨?_, .exchanged owner rfl hcode husable rfl, Or.inl ⟨_, rfl⟩⟩
        exact (hsame.consumeCode hcode).createSession owner (h.codeOwner code hcode)
          hacc hrefr hnewAcc hnewRefr
    | rotate presented access refresh =>
      have hnewAcc := hfreshAccess access (List.mem_cons_self ..)
      have hnewRefr := hnewTok refresh (by simp [NativeCall.secrets])
      have hacc := hsecret access (List.mem_cons_self ..)
      have hrefr := hsecret refresh (by simp [NativeCall.secrets])
      rcases rotate_cases lifetimes presented hsame hnewAcc hnewRefr with
        ⟨audit, hres, -⟩ | ⟨token, session, owner, htok, rfl, hsess, hid,
          ⟨audit, hres⟩ | ⟨hopen, halive, hres⟩⟩
      · simp only [perform, hres]
        refine ⟨hsame.record audit, .quiet audit rfl rfl rfl ?_ ?_, Or.inl ⟨_, rfl⟩⟩
        · intro item hitem
          cases hitem
        · intro sessionId hcall
          cases hcall
      · simp only [perform, hres]
        refine ⟨(hsame.stampFamily session.id).record audit, .revoked audit rfl rfl rfl rfl ?_,
          Or.inl ⟨_, rfl⟩⟩
        intro sessionId hcall
        cases hcall
      · simp only [perform, hres]
        refine ⟨?_, .rotated owner rfl htok hsess hid hopen halive rfl, Or.inl ⟨_, rfl⟩⟩
        exact hsame.rotateTokens owner htok hsess hid hopen hacc hrefr hnewAcc
          hnewRefr
    | revoke presented =>
      rcases revoke_cases hsame presented with
        ⟨hres, -⟩ | ⟨token, session, audit, -, -, -, -, hres⟩
      · simp only [perform, hres]
        refine ⟨hsame, .quiet db.audit rfl rfl rfl ?_ ?_, Or.inl ⟨_, rfl⟩⟩
        · intro item hitem
          cases hitem
        · intro sessionId hcall
          cases hcall
      · simp only [perform, hres]
        refine ⟨(hsame.stampFamily session.id).record audit, .revoked audit rfl rfl rfl rfl ?_,
          Or.inl ⟨_, rfl⟩⟩
        intro sessionId hcall
        cases hcall
    | find presented =>
      obtain ⟨res, hres, hf⟩ := find_cases now hsame presented
      simp only [perform, hres]
      refine ⟨hsame, .quiet db.audit rfl rfl rfl ?_ ?_, Or.inl ⟨_, rfl⟩⟩
      · intro item hitem
        obtain ⟨found, hans, rfl⟩ := Option.map_eq_some_iff.mp hitem
        obtain ⟨session, hsess, hhash, halive, hid⟩ := hf found hans
        exact ⟨session, hsess, hid.symm, hhash, halive⟩
      · intro sessionId hcall
        cases hcall
    | isActive sessionId =>
      obtain ⟨active, hres, hact⟩ := isActive_cases now hsame sessionId
      simp only [perform, hres]
      refine ⟨hsame, .quiet db.audit rfl rfl rfl ?_ ?_, Or.inl ⟨_, rfl⟩⟩
      · intro item hitem
        cases hitem
      · intro other hcall hrep
        cases hcall
        cases hrep
        exact hact rfl

theorem NativeStep.secrets (hstep : NativeStep lifetimes native event next) :
    next.secrets = native.secrets ++ event.call.secrets ∧ event.call.secrets.Nodup ∧
      ∀ secret ∈ event.call.secrets, secret ∉ native.secrets := by
  cases hstep with
  | called later distinct fresh => exact ⟨rfl, distinct, fresh⟩

variable {session : NativeAuthSession} {sessionId : Nat}

section Effects

variable {db after : AuthDb}

theorem Effect.token_persists (h : Effect lifetimes db event after)
    (hkey : db.tokens.Keyed NativeRefreshToken.id) {token : NativeRefreshToken}
    (htok : token ∈ db.tokens.rows) :
    ∃ kept ∈ after.tokens.rows, kept.tokenHash = token.tokenHash ∧
      kept.sessionId = token.sessionId ∧
      (token.consumedAt.isSome = true → kept.consumedAt.isSome = true) := by
  cases h with
  | quiet audit issued exchanged rotated accepted active => exact ⟨token, htok, rfl, rfl, id⟩
  | coded call => exact ⟨token, htok, rfl, rfl, id⟩
  | exchanged owner call stored usable reply =>
    exact ⟨token, List.mem_append_left _ htok, rfl, rfl, id⟩
  | @rotated old session owner access refresh call storedToken storedSession family open_ alive
      reply =>
      by_cases hsame : token.id = old.id
      · have heq := hkey.eq_of_key htok storedToken hsame
        refine ⟨_, Serial.mem_replace_self (List.mem_append_left _ storedToken) rfl, ?_, ?_, ?_⟩
        · rw [heq]
        · rw [heq]
        · exact fun _ => rfl
      · exact ⟨token, Serial.mem_replace_of_ne (List.mem_append_left _ htok) hsame, rfl, rfl,
          id⟩
  | @revoked sessionId audit issued exchanged rotated accepted call =>
    have hstamp := stamped event.now sessionId token
    refine ⟨_, List.mem_map_of_mem htok, hstamp.tokenHash, hstamp.sessionId, ?_⟩
    rw [hstamp.consumedAt]
    exact id

theorem Effect.session_persists (h : Effect lifetimes db event after)
    (hkey : db.sessions.Keyed NativeAuthSession.id) (hsess : session ∈ db.sessions.rows) :
    ∃ kept ∈ after.sessions.rows, kept.id = session.id ∧
      (session.revokedAt.isSome = true → kept.revokedAt.isSome = true) := by
  cases h with
  | quiet audit issued exchanged rotated accepted active => exact ⟨session, hsess, rfl, id⟩
  | coded call => exact ⟨session, hsess, rfl, id⟩
  | exchanged owner call stored usable reply =>
    exact ⟨session, List.mem_append_left _ hsess, rfl, id⟩
  | @rotated token old owner access refresh call storedToken storedSession family open_ alive
      reply =>
      by_cases hsame : session.id = old.id
      · have heq := hkey.eq_of_key hsess storedSession hsame
        refine ⟨_, Serial.mem_replace_self storedSession rfl, hsame.symm, ?_⟩
        rw [heq]
        exact id
      · exact ⟨session, Serial.mem_replace_of_ne hsess hsame, rfl, id⟩
  | @revoked sessionId audit issued exchanged rotated accepted call =>
    refine ⟨_, List.mem_map_of_mem hsess,
      (stampedSession event.now sessionId session).id, ?_⟩
    unfold NativeAuthSession.stamp
    split
    · exact fun _ => rfl
    · exact id

/-- A token is accepted for a session that is not revoked, as its access token or as
one of its refresh tokens. -/
theorem Effect.accepted_cases (h : Effect lifetimes db event after) {item : Nat × Hash}
    (hacc : event.accepted = some item) :
    ∃ session ∈ db.sessions.rows, session.id = item.1 ∧ session.revokedAt = none ∧
      (session.accessTokenHash = item.2 ∨
        ∃ token ∈ db.tokens.rows, token.sessionId = session.id ∧ token.tokenHash = item.2) := by
  cases h with
  | quiet audit issued exchanged rotated accepted active =>
    obtain ⟨session, hsess, hid, haccess, halive⟩ := accepted item hacc
    exact ⟨session, hsess, hid, halive, Or.inl haccess⟩
  | coded call =>
    rcases call with ⟨_, _, _, _, hcall, -⟩ | ⟨hcall, -⟩ <;>
      simp [NativeEvent.accepted, hcall] at hacc
  | exchanged owner call stored usable reply => simp [NativeEvent.accepted, call] at hacc
  | @rotated token session owner access refresh call storedToken storedSession family open_ alive
      reply =>
      simp only [NativeEvent.accepted, call, NativeEvent.answer, reply, Option.map_some,
        Option.some.injEq] at hacc
      subst hacc
      exact ⟨session, storedSession, rfl, alive, Or.inr ⟨token, storedToken, family.symm, rfl⟩⟩
  | revoked audit issued exchanged rotated accepted call =>
    rw [accepted] at hacc
    cases hacc

theorem Effect.active_alive (h : Effect lifetimes db event after)
    (hcall : event.call = .isActive sessionId) (hrep : event.reply = .ok (.flag true)) :
    ∃ session ∈ db.sessions.rows, session.id = sessionId ∧ session.revokedAt = none := by
  cases h with
  | quiet audit issued exchanged rotated accepted active => exact active sessionId hcall hrep
  | coded call =>
    rcases call with ⟨_, _, _, _, ho, -⟩ | ⟨ho, -⟩ <;> simp [hcall] at ho
  | exchanged owner call stored usable reply => simp [hcall] at call
  | rotated owner call storedToken storedSession family open_ alive reply => simp [hcall] at call
  | revoked audit issued exchanged rotated accepted call => exact absurd hcall (call sessionId)

end Effects

def SpentCode (native : Native) (codeHash : Hash) : Prop :=
  codeHash ∈ native.secrets ∧
    ∀ code ∈ native.db.codes.rows, code.codeHash = codeHash → code.consumedAt.isSome = true

variable {codeHash : Hash}

theorem SpentCode.step (h : SpentCode native codeHash) (hsound : Sound native)
    (hstep : NativeStep lifetimes native event next) : SpentCode next codeHash := by
  obtain ⟨hsecrets, -, hfresh⟩ := hstep.secrets
  obtain ⟨-, heff, -⟩ := hstep.effect hsound
  refine ⟨hsecrets ▸ List.mem_append_left _ h.1, ?_⟩
  obtain ⟨after, secrets, clock⟩ := next
  change Effect lifetimes native.db event after at heff
  change ∀ code ∈ after.codes.rows, _
  cases heff with
  | quiet audit issued exchanged rotated accepted active => exact h.2
  | coded call =>
    intro code hcode hhash
    rcases call with ⟨userId, login, newHash, challenge, hcall, hcodes⟩ | ⟨-, hcodes⟩
    · rcases hcodes code hcode with hold | ⟨hnew, -⟩
      · exact h.2 code hold hhash
      · have hmem : newHash ∈ event.call.secrets := by simp [hcall, NativeCall.secrets]
        exact absurd (hnew ▸ hhash ▸ h.1) (hfresh newHash hmem)
    · exact h.2 code (hcodes code hcode) hhash
  | exchanged owner call stored usable reply =>
    intro code hcode hhash
    rcases Serial.mem_replace hcode with rfl | ⟨hold, -⟩
    · rfl
    · exact h.2 code hold hhash
  | rotated owner call storedToken storedSession family open_ alive reply => exact h.2
  | revoked audit issued exchanged rotated accepted call => exact h.2

theorem exchanged_code {item : Hash × String} (hsound : Sound native)
    (hstep : NativeStep lifetimes native event next) (h : event.exchanged = some item) :
    SpentCode next item.1 ∧ ∃ code ∈ native.db.codes.rows, code.codeHash = item.1 ∧
      code.pkceChallenge = item.2 ∧ code.consumedAt = none := by
  obtain ⟨hnext, heff, -⟩ := hstep.effect hsound
  obtain ⟨hsecrets, -, -⟩ := hstep.secrets
  obtain ⟨after, secrets, clock⟩ := next
  change Effect lifetimes native.db event after at heff
  change secrets = _ at hsecrets
  cases heff with
  | quiet audit issued exchanged rotated accepted active =>
    rw [exchanged] at h
    cases h
  | coded call =>
    rcases call with ⟨_, _, _, _, hcall, -⟩ | ⟨hcall, -⟩ <;>
      simp [NativeEvent.exchanged, hcall] at h
  | @exchanged code owner codeHash access refresh challenge call stored usable reply =>
    simp only [NativeEvent.exchanged, call, NativeEvent.answer, reply, Option.map_some,
      Option.some.injEq] at h
    subst h
    simp only [NativeExchangeCode.usable, Bool.and_eq_true, beq_iff_eq,
      Option.isNone_iff_eq_none] at usable
    refine ⟨⟨?_, ?_⟩, code, stored, usable.1.1.1, usable.1.1.2, usable.1.2⟩
    · change codeHash ∈ secrets
      rw [hsecrets, ← usable.1.1.1]
      exact List.mem_append_left _ (hsound.codeSecret code stored).1
    · intro other ho hhash
      rcases Serial.mem_replace ho with rfl | ⟨hold, hne⟩
      · rfl
      · have heq := List.inj_on_of_nodup_map hsound.codeHashes hold stored
          (hhash.trans usable.1.1.1.symm)
        exact absurd (congrArg NativeExchangeCode.id heq) hne
  | rotated owner call storedToken storedSession family open_ alive reply =>
    simp [NativeEvent.exchanged, call] at h
  | revoked audit issued exchanged rotated accepted call =>
    rw [exchanged] at h
    cases h

def SpentToken (native : Native) (tokenHash : Hash) : Prop :=
  ∃ token ∈ native.db.tokens.rows, token.tokenHash = tokenHash ∧ token.consumedAt.isSome = true

variable {tokenHash : Hash}

theorem SpentToken.step (h : SpentToken native tokenHash) (hsound : Sound native)
    (hstep : NativeStep lifetimes native event next) : SpentToken next tokenHash := by
  obtain ⟨token, htok, hhash, hconsumed⟩ := h
  obtain ⟨-, heff, -⟩ := hstep.effect hsound
  obtain ⟨kept, hkept, hkeptHash, -, hkeptConsumed⟩ :=
    heff.token_persists hsound.tokens htok
  exact ⟨kept, hkept, hkeptHash.trans hhash, hkeptConsumed hconsumed⟩

theorem rotated_token (hsound : Sound native) (hstep : NativeStep lifetimes native event next)
    (h : event.rotated = some tokenHash) :
    SpentToken next tokenHash ∧ ¬ SpentToken native tokenHash := by
  obtain ⟨-, heff, -⟩ := hstep.effect hsound
  obtain ⟨after, secrets, clock⟩ := next
  change Effect lifetimes native.db event after at heff
  cases heff with
  | quiet audit issued exchanged rotated accepted active =>
    rw [rotated] at h
    cases h
  | coded call =>
    rcases call with ⟨_, _, _, _, hcall, -⟩ | ⟨hcall, -⟩ <;>
      simp [NativeEvent.rotated, hcall] at h
  | exchanged owner call stored usable reply => simp [NativeEvent.rotated, call] at h
  | @rotated token session owner access refresh call storedToken storedSession family open_ alive
      reply =>
      simp only [NativeEvent.rotated, call, NativeEvent.answer, reply, Option.map_some,
        Option.some.injEq] at h
      subst h
      constructor
      · exact ⟨_, Serial.mem_replace_self (List.mem_append_left _ storedToken) rfl, rfl, rfl⟩
      · rintro ⟨other, ho, hhash, hconsumed⟩
        have heq := List.inj_on_of_nodup_map hsound.tokenHashes ho storedToken hhash
        rw [heq, open_] at hconsumed
        cases hconsumed
  | revoked audit issued exchanged rotated accepted call =>
    rw [rotated] at h
    cases h

/-! ## Histories -/

variable {trace : List (Transition Native NativeEvent)}

def exchangedCodes (trace : List (Transition Native NativeEvent)) : List (Hash × String) :=
  trace.filterMap fun step => step.label.exchanged

def rotatedTokens (trace : List (Transition Native NativeEvent)) : List Hash :=
  trace.filterMap fun step => step.label.rotated

def issuances (trace : List (Transition Native NativeEvent)) : List PersistedNativeSession :=
  trace.filterMap fun step => step.label.issued

def newestAccess (trace : List (Transition Native NativeEvent)) (sessionId : Nat) :
    Option Hash :=
  ((issuances trace).filter fun issued => issued.sessionId == sessionId).getLast?.map
    PersistedNativeSession.accessTokenHash

def issuedTokens (trace : List (Transition Native NativeEvent)) (sessionId : Nat) : List Hash :=
  ((issuances trace).filter fun issued => issued.sessionId == sessionId).flatMap fun issued =>
    [issued.accessTokenHash, issued.refreshTokenHash]

def Bound (trace : List (Transition Native NativeEvent)) (codeHash : Hash)
    (challenge : String) : Prop :=
  ∃ step ∈ trace, ∃ userId login,
    step.label.call = .createExchange userId login codeHash challenge

/-- What the run so far says of codes and rotations. -/
structure SingleUse (trace : List (Transition Native NativeEvent)) (native : Native) : Prop where
  sound : Sound native
  exchanged : ((exchangedCodes trace).map Prod.fst).Nodup
  spentCodes : ∀ item ∈ exchangedCodes trace, SpentCode native item.1
  rotated : (rotatedTokens trace).Nodup
  spentTokens : ∀ tokenHash ∈ rotatedTokens trace, SpentToken native tokenHash
  stored : ∀ code ∈ native.db.codes.rows, Bound trace code.codeHash code.pkceChallenge
  bound : ∀ codeHash challenge, Bound trace codeHash challenge →
    codeHash ∈ native.secrets ∧
      ∀ code ∈ native.db.codes.rows, code.codeHash = codeHash → code.pkceChallenge = challenge
  challenges : ∀ item ∈ exchangedCodes trace,
    Bound trace item.1 item.2 ∧ ∀ challenge, Bound trace item.1 challenge → challenge = item.2

theorem Effect.code_origin {db after : AuthDb} (h : Effect lifetimes db event after)
    {code : NativeExchangeCode} (hcode : code ∈ after.codes.rows) :
    (∃ old ∈ db.codes.rows, old.codeHash = code.codeHash ∧
      old.pkceChallenge = code.pkceChallenge) ∨
    ∃ userId login, event.call = .createExchange userId login code.codeHash
      code.pkceChallenge := by
  cases h with
  | quiet audit issued exchanged rotated accepted active => exact Or.inl ⟨code, hcode, rfl, rfl⟩
  | coded call =>
    rcases call with ⟨userId, login, codeHash, challenge, hcall, hcodes⟩ | ⟨-, hcodes⟩
    · rcases hcodes code hcode with hold | ⟨rfl, rfl⟩
      · exact Or.inl ⟨code, hold, rfl, rfl⟩
      · exact Or.inr ⟨userId, login, hcall⟩
    · exact Or.inl ⟨code, hcodes code hcode, rfl, rfl⟩
  | exchanged owner call stored usable reply =>
    rcases Serial.mem_replace hcode with rfl | ⟨hold, -⟩
    · exact Or.inl ⟨_, stored, rfl, rfl⟩
    · exact Or.inl ⟨code, hold, rfl, rfl⟩
  | rotated owner call storedToken storedSession family open_ alive reply =>
    exact Or.inl ⟨code, hcode, rfl, rfl⟩
  | revoked audit issued exchanged rotated accepted call =>
    exact Or.inl ⟨code, hcode, rfl, rfl⟩

theorem filterMap_snoc {α β : Type} (f : α → Option β) (xs : List α) (x : α) :
    (xs ++ [x]).filterMap f = xs.filterMap f ++ (f x).toList := by
  rw [List.filterMap_append]
  cases hx : f x <;> simp [hx]

theorem bound_snoc {step : Transition Native NativeEvent} {challenge : String} :
    Bound (trace ++ [step]) codeHash challenge ↔ Bound trace codeHash challenge ∨
      ∃ userId login, step.label.call = .createExchange userId login codeHash challenge := by
  constructor
  · rintro ⟨other, ho, hcrt⟩
    rcases List.mem_append.mp ho with hold | hlast
    · exact Or.inl ⟨other, hold, hcrt⟩
    · rw [List.mem_singleton.mp hlast] at hcrt
      exact Or.inr hcrt
  · rintro (⟨other, ho, hcrt⟩ | hcrt)
    · exact ⟨other, List.mem_append_left _ ho, hcrt⟩
    · exact ⟨step, List.mem_append_right _ (List.mem_singleton.mpr rfl), hcrt⟩

theorem SingleUse.step (h : SingleUse trace native)
    (hstep : NativeStep lifetimes native event next) :
    SingleUse (trace ++ [⟨native, event, next⟩]) next := by
  obtain ⟨hsound, heff, -⟩ := hstep.effect h.sound
  obtain ⟨hsecrets, -, hfresh⟩ := hstep.secrets
  have hold : ∀ {secret}, secret ∈ native.secrets → secret ∈ next.secrets := by
    intro secret hmem
    rw [hsecrets]
    exact List.mem_append_left _ hmem
  have hcrt : ∀ {codeHash chal userId login},
      event.call = .createExchange userId login codeHash chal →
      codeHash ∉ native.secrets := by
    intro codeHash chal userId login hcall
    exact hfresh codeHash (by simp [hcall, NativeCall.secrets])
  constructor
  case sound => exact hsound
  case exchanged =>
    rw [exchangedCodes, filterMap_snoc, List.map_append, List.nodup_append]
    refine ⟨h.exchanged, ?_, ?_⟩
    · cases event.exchanged <;> simp
    · intro codeHash hcode other ho heq
      subst heq
      obtain ⟨item, hitem, rfl⟩ := List.mem_map.mp hcode
      obtain ⟨new, hnew, hsame⟩ := List.mem_map.mp ho
      obtain ⟨-, code, hsto, hhash, -, hopen⟩ :=
        exchanged_code h.sound hstep (Option.mem_toList.mp hnew)
      have hspent := (h.spentCodes item hitem).2 code hsto (hhash.trans hsame)
      rw [hopen] at hspent
      cases hspent
  case spentCodes =>
    intro item hitem
    rw [exchangedCodes, filterMap_snoc] at hitem
    rcases List.mem_append.mp hitem with hearl | hnew
    · exact (h.spentCodes item hearl).step h.sound hstep
    · exact (exchanged_code h.sound hstep (Option.mem_toList.mp hnew)).1
  case rotated =>
    rw [rotatedTokens, filterMap_snoc, List.nodup_append]
    refine ⟨h.rotated, ?_, ?_⟩
    · cases event.rotated <;> simp
    · intro tokenHash htok other ho heq
      subst heq
      have hnew := rotated_token h.sound hstep (Option.mem_toList.mp ho)
      exact hnew.2 (h.spentTokens tokenHash htok)
  case spentTokens =>
    intro tokenHash htok
    rw [rotatedTokens, filterMap_snoc] at htok
    rcases List.mem_append.mp htok with hearl | hnew
    · exact (h.spentTokens tokenHash hearl).step h.sound hstep
    · exact (rotated_token h.sound hstep (Option.mem_toList.mp hnew)).1
  case stored =>
    intro code hcode
    rw [bound_snoc]
    rcases heff.code_origin hcode with ⟨old, holdCode, hhash, hchal⟩ | hnew
    · rw [← hhash, ← hchal]
      exact Or.inl (h.stored old holdCode)
    · exact Or.inr hnew
  case bound =>
    intro codeHash chal hbound
    rcases bound_snoc.mp hbound with hearl | ⟨userId, login, hcall⟩
    · obtain ⟨hsecret, hcodes⟩ := h.bound codeHash chal hearl
      refine ⟨hold hsecret, ?_⟩
      rintro code hcode rfl
      rcases heff.code_origin hcode with ⟨old, holdCode, hhash, hchal⟩ | ⟨_, _, hnew⟩
      · rw [← hchal]
        exact hcodes old holdCode hhash
      · exact absurd hsecret (hcrt hnew)
    · change event.call = _ at hcall
      constructor
      · rw [hsecrets]
        exact List.mem_append_right _ (by simp [hcall, NativeCall.secrets])
      · rintro code hcode rfl
        rcases heff.code_origin hcode with ⟨old, holdCode, hhash, -⟩ | ⟨_, _, hnew⟩
        · have hsecret := (h.sound.codeSecret old holdCode).1
          rw [hhash] at hsecret
          exact absurd hsecret (hcrt hcall)
        · rw [hcall] at hnew
          injection hnew with _ _ _ hchal
          exact hchal.symm
  case challenges =>
    intro item hitem
    rw [exchangedCodes, filterMap_snoc] at hitem
    rcases List.mem_append.mp hitem with hearl | hnew
    · obtain ⟨hbound, huniq⟩ := h.challenges item hearl
      refine ⟨bound_snoc.mpr (Or.inl hbound), ?_⟩
      intro chal ho
      rcases bound_snoc.mp ho with ho | ⟨_, _, hcall⟩
      · exact huniq chal ho
      · exact absurd (h.spentCodes item hearl).1 (hcrt hcall)
    · have hexch : event.exchanged = some item := Option.mem_toList.mp hnew
      obtain ⟨-, code, hsto, hhash, hchal, -⟩ := exchanged_code h.sound hstep hexch
      constructor
      · rw [← hhash, ← hchal]
        exact bound_snoc.mpr (Or.inl (h.stored code hsto))
      · intro chal ho
        rcases bound_snoc.mp ho with ho | ⟨_, _, hcall⟩
        · rw [← hchal]
          exact ((h.bound item.1 chal ho).2 code hsto hhash).symm
        · change event.call = _ at hcall
          simp [NativeEvent.exchanged, hcall] at hexch

/-! ## Tokens belong to their session -/

/-- What the run so far says of the tokens made. -/
structure Owned (trace : List (Transition Native NativeEvent)) (native : Native) : Prop where
  sound : Sound native
  newest : ∀ session ∈ native.db.sessions.rows,
    newestAccess trace session.id = some session.accessTokenHash
  tokens : ∀ token ∈ native.db.tokens.rows, ∃ issued ∈ issuances trace,
    issued.sessionId = token.sessionId ∧ issued.refreshTokenHash = token.tokenHash
  secrets : ∀ issued ∈ issuances trace,
    issued.accessTokenHash ∈ native.secrets ∧ issued.refreshTokenHash ∈ native.secrets
  family : ∀ issued ∈ issuances trace, ∀ other ∈ issuances trace, ∀ token,
    token ∈ [issued.accessTokenHash, issued.refreshTokenHash] →
    token ∈ [other.accessTokenHash, other.refreshTokenHash] → issued.sessionId = other.sessionId

/-- What a call that makes tokens does to the rows of its session and of the
others. -/
structure Issued (db : AuthDb) (event : NativeEvent) (issued : PersistedNativeSession)
    (after : AuthDb) : Prop where
  secrets : event.call.secrets = [issued.accessTokenHash, issued.refreshTokenHash]
  session : ∀ session ∈ after.sessions.rows,
    (session.id = issued.sessionId ∧ session.accessTokenHash = issued.accessTokenHash) ∨
      (session.id ≠ issued.sessionId ∧ ∃ old ∈ db.sessions.rows, old.id = session.id ∧
        old.accessTokenHash = session.accessTokenHash)
  token : ∀ token ∈ after.tokens.rows,
    (token.sessionId = issued.sessionId ∧ token.tokenHash = issued.refreshTokenHash) ∨
      ∃ old ∈ db.tokens.rows, old.sessionId = token.sessionId ∧ old.tokenHash = token.tokenHash

/-- Rows of the other calls keep their identities and hashes. -/
structure Unissued (db after : AuthDb) : Prop where
  session : ∀ session ∈ after.sessions.rows, ∃ old ∈ db.sessions.rows, old.id = session.id ∧
    old.accessTokenHash = session.accessTokenHash
  token : ∀ token ∈ after.tokens.rows, ∃ old ∈ db.tokens.rows,
    old.sessionId = token.sessionId ∧ old.tokenHash = token.tokenHash

theorem unissued_of_eq {db after : AuthDb} (hsessions : after.sessions = db.sessions)
    (htoks : after.tokens = db.tokens) : Unissued db after where
  session := fun session hsess => ⟨session, hsessions ▸ hsess, rfl, rfl⟩
  token := fun token htok => ⟨token, htoks ▸ htok, rfl, rfl⟩

theorem Effect.issues {db after : AuthDb} (h : Effect lifetimes db event after)
    (hkey : db.sessions.Keyed NativeAuthSession.id) :
    (event.issued = none ∧ Unissued db after) ∨
      ∃ issued, event.issued = some issued ∧ Issued db event issued after := by
  cases h with
  | quiet audit issued exchanged rotated accepted active =>
    exact Or.inl ⟨issued, unissued_of_eq rfl rfl⟩
  | coded call =>
    refine Or.inl ⟨?_, unissued_of_eq rfl rfl⟩
    rcases call with ⟨_, _, _, _, hcall, -⟩ | ⟨hcall, -⟩ <;> rw [NativeEvent.issued, hcall]
  | @exchanged code owner codeHash access refresh challenge call stored usable reply =>
    refine Or.inr ⟨_, by rw [NativeEvent.issued, call, NativeEvent.answer, reply], ?_⟩
    constructor
    · rw [call]
      rfl
    · intro session hsess
      rcases List.mem_append.mp hsess with hold | hnew
      · refine Or.inr ⟨?_, session, hold, rfl, rfl⟩
        exact Nat.ne_of_lt (hkey.lt session hold)
      · rw [List.mem_singleton.mp hnew]
        exact Or.inl ⟨rfl, rfl⟩
    · intro token htok
      rcases List.mem_append.mp htok with hold | hnew
      · exact Or.inr ⟨token, hold, rfl, rfl⟩
      · rw [List.mem_singleton.mp hnew]
        exact Or.inl ⟨rfl, rfl⟩
  | @rotated token session owner access refresh call storedToken storedSession family open_ alive
      reply =>
      refine Or.inr ⟨_, by rw [NativeEvent.issued, call, NativeEvent.answer, reply], ?_⟩
      constructor
      · rw [call]
        rfl
      · intro other ho
        rcases Serial.mem_replace ho with rfl | ⟨hold, hne⟩
        · exact Or.inl ⟨rfl, rfl⟩
        · exact Or.inr ⟨hne, other, hold, rfl, rfl⟩
      · intro other ho
        rcases mem_rotateTokens owner ho with rfl | ⟨-, hold | rfl⟩
        · exact Or.inr ⟨token, storedToken, rfl, rfl⟩
        · exact Or.inr ⟨other, hold, rfl, rfl⟩
        · exact Or.inl ⟨rfl, rfl⟩
  | @revoked sessionId audit issued exchanged rotated accepted call =>
    refine Or.inl ⟨issued, ?_, ?_⟩
    · intro session hsess
      obtain ⟨old, hold, rfl⟩ := List.mem_map.mp hsess
      have hstamp := stampedSession event.now sessionId old
      exact ⟨old, hold, hstamp.id.symm, hstamp.accessTokenHash.symm⟩
    · intro token htok
      obtain ⟨old, hold, rfl⟩ := List.mem_map.mp htok
      have hstamp := stamped event.now sessionId old
      exact ⟨old, hold, hstamp.sessionId.symm, hstamp.tokenHash.symm⟩

theorem issuances_snoc (step : Transition Native NativeEvent) :
    issuances (trace ++ [step]) = issuances trace ++ step.label.issued.toList :=
  filterMap_snoc _ _ _

variable {issued : PersistedNativeSession}

theorem newestAccess_snoc {step : Transition Native NativeEvent}
    (h : step.label.issued = some issued) (sessionId : Nat) :
    newestAccess (trace ++ [step]) sessionId =
      if sessionId = issued.sessionId then some issued.accessTokenHash
      else newestAccess trace sessionId := by
  rw [newestAccess, issuances_snoc, h, Option.toList_some, List.filter_append]
  by_cases hsame : sessionId = issued.sessionId
  · simp [hsame]
  · simp [hsame, Ne.symm hsame, newestAccess]

theorem Owned.fresh_ne (h : Owned trace native)
    (hfresh : ∀ secret ∈ event.call.secrets, secret ∉ native.secrets)
    (hiss : issued ∈ issuances trace) {token : Hash}
    (htok : token ∈ [issued.accessTokenHash, issued.refreshTokenHash])
    (hnew : token ∈ event.call.secrets) : False := by
  have hsecrets := h.secrets issued hiss
  apply hfresh token hnew
  simp only [List.mem_cons, List.not_mem_nil, or_false] at htok
  rcases htok with rfl | rfl
  · exact hsecrets.1
  · exact hsecrets.2

theorem Owned.step (h : Owned trace native) (hstep : NativeStep lifetimes native event next) :
    Owned (trace ++ [⟨native, event, next⟩]) next := by
  obtain ⟨hsound, heff, -⟩ := hstep.effect h.sound
  obtain ⟨hsecrets, -, hfresh⟩ := hstep.secrets
  have hold : ∀ issued ∈ issuances trace,
      issued.accessTokenHash ∈ next.secrets ∧ issued.refreshTokenHash ∈ next.secrets := by
    intro issued hiss
    rw [hsecrets]
    exact ⟨List.mem_append_left _ (h.secrets issued hiss).1,
      List.mem_append_left _ (h.secrets issued hiss).2⟩
  rcases heff.issues h.sound.sessions with ⟨hnone, hrows⟩ | ⟨new, hnew, hrows⟩
  · have hsame : issuances (trace ++ [⟨native, event, next⟩]) = issuances trace := by
      rw [issuances_snoc, hnone, Option.toList_none, List.append_nil]
    constructor
    case sound => exact hsound
    case newest =>
      intro session hsess
      obtain ⟨old, holdSess, hid, hacc⟩ := hrows.session session hsess
      rw [newestAccess, hsame, ← hid, ← hacc]
      exact h.newest old holdSess
    case tokens =>
      intro token htok
      obtain ⟨old, holdTok, hid, hhash⟩ := hrows.token token htok
      rw [hsame, ← hid, ← hhash]
      exact h.tokens old holdTok
    case secrets => rwa [hsame]
    case family =>
      rw [hsame]
      exact h.family
  · have hmade : issuances (trace ++ [⟨native, event, next⟩]) = issuances trace ++ [new] := by
      rw [issuances_snoc, hnew, Option.toList_some]
    constructor
    case sound => exact hsound
    case newest =>
      intro session hsess
      rw [newestAccess_snoc hnew]
      rcases hrows.session session hsess with
        ⟨hid, hacc⟩ | ⟨hne, old, holdSess, hid, hacc⟩
      · rw [if_pos hid, hacc]
      · rw [if_neg hne, ← hid, ← hacc]
        exact h.newest old holdSess
    case tokens =>
      intro token htok
      rw [hmade]
      rcases hrows.token token htok with ⟨hid, hhash⟩ | ⟨old, holdTok, hid, hhash⟩
      · exact ⟨new, List.mem_append_right _ (List.mem_singleton.mpr rfl), hid.symm, hhash.symm⟩
      · obtain ⟨issued, hiss, hsess, hrefr⟩ := h.tokens old holdTok
        exact ⟨issued, List.mem_append_left _ hiss, hsess.trans hid, hrefr.trans hhash⟩
    case secrets =>
      intro issued hiss
      rw [hmade] at hiss
      rcases List.mem_append.mp hiss with hearl | hlast
      · exact hold issued hearl
      · rw [List.mem_singleton.mp hlast, hsecrets, hrows.secrets]
        exact ⟨List.mem_append_right _ (List.mem_cons_self ..),
          List.mem_append_right _ (List.mem_cons_of_mem _ (List.mem_cons_self ..))⟩
    case family =>
      rw [hmade]
      intro issued hiss other ho token htok hotherTok
      rcases List.mem_append.mp hiss with hearl | hlast <;>
        rcases List.mem_append.mp ho with hotherEarl | hotherLast
      · exact h.family issued hearl other hotherEarl token htok hotherTok
      · rw [List.mem_singleton.mp hotherLast, ← hrows.secrets] at hotherTok
        exact (h.fresh_ne hfresh hearl htok hotherTok).elim
      · rw [List.mem_singleton.mp hlast, ← hrows.secrets] at htok
        exact (h.fresh_ne hfresh hotherEarl hotherTok htok).elim
      · rw [List.mem_singleton.mp hlast, List.mem_singleton.mp hotherLast]

/-! ## Closed families -/

def Closed (native : Native) (sessionId : Nat) : Prop :=
  ∃ session ∈ native.db.sessions.rows, session.id = sessionId ∧ session.revokedAt.isSome = true

theorem Closed.step (h : Closed native sessionId) (hsound : Sound native)
    (hstep : NativeStep lifetimes native event next) : Closed next sessionId := by
  obtain ⟨session, hsess, hid, hrevoked⟩ := h
  obtain ⟨-, heff, -⟩ := hstep.effect hsound
  obtain ⟨kept, hkept, hkeptId, hkeptRevoked⟩ :=
    heff.session_persists hsound.sessions hsess
  exact ⟨kept, hkept, hkeptId.trans hid, hkeptRevoked hrevoked⟩

theorem Closed.not_alive (h : Closed native sessionId) (hsound : Sound native)
    (hsess : session ∈ native.db.sessions.rows) (halive : session.revokedAt = none) :
    session.id ≠ sessionId := by
  obtain ⟨closed, hclos, hid, hrevoked⟩ := h
  intro hsame
  have heq := hsound.sessions.eq_of_key hsess hclos (hsame.trans hid.symm)
  rw [← heq, halive] at hrevoked
  cases hrevoked

def Burns (native : Native) (event : NativeEvent) (sessionId : Nat) : Prop :=
  ∃ token ∈ native.db.tokens.rows, token.sessionId = sessionId ∧
    (event.call = .revoke token.tokenHash ∨
      (token.consumedAt.isSome = true ∧
        ∃ access refresh, event.call = .rotate token.tokenHash access refresh))

theorem stamp_revoked (now : Instant) (session : NativeAuthSession) :
    (session.stamp now session.id).revokedAt.isSome = true := by
  unfold NativeAuthSession.stamp
  cases hrevoked : session.revokedAt with
  | none => simp
  | some time => simp [hrevoked]

theorem closed_stampFamily {db : AuthDb} (hsess : session ∈ db.sessions.rows) (now : Instant)
    (audit : List NativeAuditEvent) (secrets : List Hash) :
    Closed ⟨{ stampFamily now session.id db with audit := audit }, secrets, now⟩ session.id :=
  ⟨session.stamp now session.id, List.mem_map_of_mem hsess,
    (stampedSession now session.id session).id, stamp_revoked now session⟩

theorem closed_of_burns (hsound : Sound native) (hstep : NativeStep lifetimes native event next)
    (h : Burns native event sessionId) : Closed next sessionId := by
  obtain ⟨token, htok, rfl, hcall⟩ := h
  cases hstep with
  | @called now call later distinct fresh =>
    obtain ⟨db, secrets, clock⟩ := native
    have hsame : Sound ⟨db, secrets ++ call.secrets, now⟩ := hsound.later later _ _
    -- the token that the lookup finds is the one presented
    have hfamily : ∀ other ∈ db.tokens.rows, other.tokenHash = token.tokenHash →
        ∀ session : NativeAuthSession, session.id = other.sessionId →
        session.id = token.sessionId := by
      intro other ho hhash session hid
      rw [hid, List.inj_on_of_nodup_map hsound.tokenHashes ho htok hhash]
    rcases hcall with hcall | ⟨hconsumed, access, refresh, hcall⟩
    · change call = _ at hcall
      subst hcall
      rcases revoke_cases hsame token.tokenHash with
        ⟨-, hmis⟩ | ⟨other, session, audit, ho, hhash, hsess, hid, hres⟩
      · exact absurd rfl (hmis token htok)
      · simp only [perform, hres]
        rw [← hfamily other ho hhash session hid]
        exact closed_stampFamily hsess now audit _
    · change call = _ at hcall
      subst hcall
      have hnewAcc : ∀ session ∈ db.sessions.rows, session.accessTokenHash ≠ access := by
        rintro session hsess rfl
        exact fresh _ (List.mem_cons_self ..) (hsound.sessionSecret session hsess).1
      have hnewRefr : ∀ token ∈ db.tokens.rows, token.tokenHash ≠ refresh := by
        rintro token htok rfl
        exact fresh _ (by simp [NativeCall.secrets]) (hsound.tokenSecret token htok).1
      rcases rotate_cases lifetimes token.tokenHash hsame hnewAcc hnewRefr with
        ⟨audit, hres, hclos⟩ | ⟨other, session, owner, ho, hhash, hsess, hid,
          ⟨audit, hres⟩ | ⟨hopen, -, -⟩⟩
      · obtain ⟨session, hsess, hid⟩ := hsound.tokenSession token htok
        simp only [perform, hres]
        exact ⟨session, hsess, hid, hclos token htok rfl hconsumed session hsess hid⟩
      · simp only [perform, hres]
        rw [← hfamily other ho hhash session hid]
        exact closed_stampFamily hsess now audit _
      · have heq := List.inj_on_of_nodup_map hsound.tokenHashes ho htok hhash
        rw [heq] at hopen
        rw [hopen] at hconsumed
        cases hconsumed

theorem reply_error {error : StoreError} (hsound : Sound native)
    (hstep : NativeStep lifetimes native event next) (h : event.reply = .error error) :
    error = .integrity := by
  obtain ⟨-, -, ⟨reply, hrep⟩ | ⟨userId, login, codeHash, challenge, hcall⟩⟩ :=
    hstep.effect hsound
  · rw [hrep] at h
    cases h
  · cases hstep with
    | @called now call later distinct fresh =>
      change call = _ at hcall
      subst hcall
      simp only [perform] at h
      cases hcre : createNativeExchange lifetimes now userId login codeHash challenge
        native.db with
      | ok after =>
        rw [hcre] at h
        cases h
      | error raised =>
        rw [hcre] at h
        cases h
        simp only [createNativeExchange, bind_error_iff] at hcre
        rcases hcre with hgrd | ⟨_, _, hreturn⟩
        · have hmem := raiseFirst_error hgrd
          simp only [List.mem_cons, Prod.mk.injEq, List.not_mem_nil, or_false] at hmem
          rcases hmem with ⟨-, rfl⟩ | ⟨-, rfl⟩ | ⟨-, rfl⟩ <;> rfl
        · cases hreturn

/-! ## Every run -/

variable {clock : Instant} {final : Native}

theorem singleUse_of_run (hrun : Run (NativeStep lifetimes) (emptyNative clock) trace final) :
    SingleUse trace final := by
  apply hrun.invariant
  · constructor
    case sound => exact sound_empty clock
    case bound =>
      rintro codeHash chal ⟨step, hmem, -⟩
      cases hmem
    all_goals simp [exchangedCodes, rotatedTokens, emptyNative, Serial.empty]
  · intro trace native event next h hstep
    exact h.step hstep

theorem owned_of_run (hrun : Run (NativeStep lifetimes) (emptyNative clock) trace final) :
    Owned trace final := by
  apply hrun.invariant
  · constructor
    case sound => exact sound_empty clock
    all_goals simp [issuances, emptyNative, Serial.empty]
  · intro trace native event next h hstep
    exact h.step hstep

theorem mem_of_newestAccess {token : Hash} (h : newestAccess trace sessionId = some token) :
    ∃ issued ∈ issuances trace, issued.sessionId = sessionId ∧
      token ∈ [issued.accessTokenHash, issued.refreshTokenHash] := by
  obtain ⟨issued, hlast, rfl⟩ := Option.map_eq_some_iff.mp h
  have hmem := List.mem_filter.mp (List.mem_of_getLast? hlast)
  exact ⟨issued, hmem.1, beq_iff_eq.mp hmem.2, List.mem_cons_self ..⟩

theorem Owned.accepted (h : Owned trace native) (hstep : NativeStep lifetimes native event next)
    {item : Nat × Hash} (hacc : event.accepted = some item) :
    ∃ issued ∈ issuances trace, issued.sessionId = item.1 ∧
      item.2 ∈ [issued.accessTokenHash, issued.refreshTokenHash] := by
  obtain ⟨-, heff, -⟩ := hstep.effect h.sound
  obtain ⟨session, hsess, hid, -, haccess | ⟨token, htok, hfamily, hhash⟩⟩ :=
    heff.accepted_cases hacc
  · rw [← hid, ← haccess]
    exact mem_of_newestAccess (h.newest session hsess)
  · obtain ⟨issued, hiss, hissId, hrefr⟩ := h.tokens token htok
    refine ⟨issued, hiss, (hissId.trans hfamily).trans hid, ?_⟩
    rw [← hhash, ← hrefr]
    exact List.mem_cons_of_mem _ (List.mem_cons_self ..)

theorem Owned.found (h : Owned trace native) (hstep : NativeStep lifetimes native event next)
    {presented : Hash} {found : PersistedNativeSession} (hcall : event.call = .find presented)
    (hans : event.answer = some found) :
    newestAccess trace found.sessionId = some presented := by
  have hacc : event.accepted = some (found.sessionId, presented) := by
    rw [NativeEvent.accepted, hcall]
    simp only [hans, Option.map_some]
  obtain ⟨-, heff, -⟩ := hstep.effect h.sound
  obtain ⟨after, secrets, clock⟩ := next
  change Effect lifetimes native.db event after at heff
  cases heff with
  | quiet audit issued exchanged rotated accepted active =>
    obtain ⟨session, hsess, hid, haccess, -⟩ := accepted _ hacc
    have hnewest := h.newest session hsess
    rwa [hid, haccess] at hnewest
  | coded call =>
    rcases call with ⟨_, _, _, _, hcre, -⟩ | ⟨hdelete, -⟩
    · rw [hcall] at hcre
      cases hcre
    · rw [hcall] at hdelete
      cases hdelete
  | exchanged owner call stored usable reply =>
    rw [hcall] at call
    cases call
  | rotated owner call storedToken storedSession family open_ alive reply =>
    rw [hcall] at call
    cases call
  | revoked audit issued exchanged rotated accepted call =>
    rw [accepted] at hacc
    cases hacc

theorem closed_refuses {step : Transition Native NativeEvent}
    {before after : List (Transition Native NativeEvent)}
    (hrun : Run (NativeStep lifetimes) (emptyNative clock) trace final)
    (htr : trace = before ++ step :: after) (hclos : Closed step.after sessionId) :
    ∀ later ∈ after,
      (∀ item, later.label.accepted = some item → item.2 ∉ issuedTokens trace sessionId) ∧
      (later.label.call = .isActive sessionId → later.label.reply ≠ .ok (.flag true)) := by
  obtain ⟨mid, hb, hrest⟩ := hrun.of_append htr
  obtain ⟨rfl, hstep, ha⟩ := hrest.of_cons
  intro later hlat
  obtain ⟨left, right, rfl, hleft, hlatStep, hright⟩ := ha.split hlat
  have hearl := (hb.snoc hstep).append hleft
  have howned := owned_of_run hearl
  have hstill : Closed later.before sessionId ∧ Sound later.before := by
    refine hleft.state_invariant (I := fun native => Closed native sessionId ∧ Sound native) ?_ ?_
    · exact ⟨hclos, (hstep.effect (owned_of_run hb).sound).1⟩
    · rintro native event next ⟨hclos, hsound⟩ hstep
      exact ⟨hclos.step hsound hstep, (hstep.effect hsound).1⟩
  obtain ⟨-, heff, -⟩ := hlatStep.effect howned.sound
  constructor
  · intro item hacc hiss
    obtain ⟨session, hsess, hid, halive, -⟩ := heff.accepted_cases hacc
    have ho := hstill.1.not_alive hstill.2 hsess halive
    obtain ⟨issued, hissMem, hissId, htok⟩ := howned.accepted hlatStep hacc
    obtain ⟨own, hown, hownTok⟩ := List.mem_flatMap.mp hiss
    have hown := List.mem_filter.mp hown
    have hfull : issued ∈ issuances trace := by
      obtain ⟨source, hsrc, hlab⟩ := List.mem_filterMap.mp hissMem
      refine List.mem_filterMap.mpr ⟨source, ?_, hlab⟩
      rw [htr]
      simp only [List.mem_append, List.mem_cons, List.not_mem_nil, or_false] at hsrc ⊢
      rcases hsrc with (hsrc | hsrc) | hsrc
      · exact Or.inl hsrc
      · exact Or.inr (Or.inl hsrc)
      · exact Or.inr (Or.inr (Or.inl hsrc))
    have hsame := (owned_of_run hrun).family issued hfull own hown.1 item.2 htok hownTok
    apply ho
    rw [hid, ← hissId, hsame]
    exact beq_iff_eq.mp hown.2
  · intro hcall hrep
    obtain ⟨session, hsess, hid, halive⟩ := heff.active_alive hcall hrep
    exact hstill.1.not_alive hstill.2 hsess halive hid

/-- In every run of calls on an empty store: a code makes at most one session,
under the one challenge it was created with; a refresh token is rotated at most
once; every unrevoked session has exactly one refresh token that was not
consumed, and no lookup sees two rows; an access token is accepted only while it
is the newest of its session; and once a consumed refresh token is presented
again, or the session is revoked, no token made for it is accepted. -/
theorem native_family_safety {clock : Instant} {final : Native}
    (hrun : Run (NativeStep lifetimes) (emptyNative clock) trace final) :
    ((exchangedCodes trace).map Prod.fst).Nodup ∧
    (∀ item ∈ exchangedCodes trace, Bound trace item.1 item.2 ∧
      ∀ challenge, Bound trace item.1 challenge → challenge = item.2) ∧
    (rotatedTokens trace).Nodup ∧
    (∀ session ∈ final.db.sessions.rows, session.revokedAt = none →
      ∃ token ∈ final.db.tokens.rows, Current session token ∧
        ∀ other ∈ final.db.tokens.rows, Current session other → other = token) ∧
    (∀ step ∈ trace, step.label.reply ≠ .error .multipleResults) ∧
    (∀ before step after, trace = before ++ step :: after → ∀ presented found,
      step.label.call = .find presented → step.label.answer = some found →
      newestAccess before found.sessionId = some presented) ∧
    ∀ before step after sessionId, trace = before ++ step :: after →
      (Burns step.before step.label sessionId ∨ Closed step.after sessionId) →
      ∀ later ∈ after,
        (∀ item, later.label.accepted = some item → item.2 ∉ issuedTokens trace sessionId) ∧
        (later.label.call = .isActive sessionId → later.label.reply ≠ .ok (.flag true)) := by
  have hsingle := singleUse_of_run hrun
  refine ⟨hsingle.exchanged, hsingle.challenges, hsingle.rotated, ?_, ?_, ?_, ?_⟩
  · intro session hsession _
    exact hsingle.sound.current session hsession
  · intro step hmem hreply
    obtain ⟨before, after, -, hbefore, hstep, -⟩ := hrun.split hmem
    cases reply_error (singleUse_of_run hbefore).sound hstep hreply
  · intro before step after htrace presented found hcall hanswer
    obtain ⟨mid, hbefore, hrest⟩ := hrun.of_append htrace
    obtain ⟨rfl, hstep, -⟩ := hrest.of_cons
    exact (owned_of_run hbefore).found hstep hcall hanswer
  · intro before step after sessionId htrace hclosing
    have hclosed : Closed step.after sessionId := by
      rcases hclosing with hburns | hclosed
      · obtain ⟨mid, hbefore, hrest⟩ := hrun.of_append htrace
        obtain ⟨rfl, hstep, -⟩ := hrest.of_cons
        exact closed_of_burns (owned_of_run hbefore).sound hstep hburns
      · exact hclosed
    exact closed_refuses hrun htrace hclosed

/-! ## A stolen refresh token -/

def sampleLifetimes : NativeLifetimes where
  access := seconds 900
  refresh := seconds 2592000
  exchange := seconds 120
  access_bounds := by decide
  refresh_bounds := by decide
  exchange_bounds := by decide

def callAt (native : Native) (now : Instant) (call : NativeCall) :
    Transition Native NativeEvent :=
  ⟨native, ⟨now, call, (perform sampleLifetimes now call native.db).map Prod.fst⟩,
    ⟨committed native.db (perform sampleLifetimes now call native.db),
      native.secrets ++ call.secrets, now⟩⟩

def sampleChallenge : String := "E9Melhoa2OwvFrEMTJguCHaoeK1t8URWbuGJSstw-cM"

def codeCreated : Transition Native NativeEvent :=
  callAt (emptyNative 0) 0 (.createExchange 7 "learner" "code" sampleChallenge)

def codeExchanged : Transition Native NativeEvent :=
  callAt codeCreated.after 1 (.exchange "code" sampleChallenge "access-1" "refresh-1")

def tokenRotated : Transition Native NativeEvent :=
  callAt codeExchanged.after 2 (.rotate "refresh-1" "access-2" "refresh-2")

def accessFound : Transition Native NativeEvent :=
  callAt tokenRotated.after 3 (.find "access-2")

def tokenReplayed : Transition Native NativeEvent :=
  callAt accessFound.after 4 (.rotate "refresh-1" "access-3" "refresh-3")

def accessRefused : Transition Native NativeEvent :=
  callAt tokenReplayed.after 5 (.find "access-2")

def stolenTrace : List (Transition Native NativeEvent) :=
  [codeCreated, codeExchanged, tokenRotated, accessFound, tokenReplayed, accessRefused]

theorem stolen_run :
    Run (NativeStep sampleLifetimes) (emptyNative 0) stolenTrace accessRefused.after := by
  have hsteps : ∀ t ∈ stolenTrace, NativeStep sampleLifetimes t.before t.label t.after := by
    simp only [stolenTrace, List.forall_mem_cons]
    refine ⟨?_, ?_, ?_, ?_, ?_, ?_, List.forall_mem_nil _⟩ <;>
      exact NativeStep.called (by decide) (by decide) (by decide)
  simp only [stolenTrace, List.forall_mem_cons] at hsteps
  obtain ⟨hcrt, hexch, hrotated, hf, hreplayed, href, -⟩ := hsteps
  exact (((((Run.single hcrt).snoc hexch).snoc hrotated).snoc hf).snoc
    hreplayed).snoc href

/-- The stolen token closes the family: the newest access token was accepted
before and is refused afterwards. -/
theorem native_family_safety_stolen :
    Run (NativeStep sampleLifetimes) (emptyNative 0) stolenTrace accessRefused.after ∧
      exchangedCodes stolenTrace = [("code", sampleChallenge)] ∧
      rotatedTokens stolenTrace = ["refresh-1"] ∧
      accessFound.label.accepted = some (1, "access-2") ∧
      Burns tokenReplayed.before tokenReplayed.label 1 ∧
      ∀ item, accessRefused.label.accepted = some item →
        item.2 ∉ issuedTokens stolenTrace 1 := by
  have hburns : Burns tokenReplayed.before tokenReplayed.label 1 := by
    have htoken : ∃ token ∈ tokenReplayed.before.db.tokens.rows,
        token.tokenHash = "refresh-1" ∧ token.sessionId = 1 ∧
        token.consumedAt.isSome = true := by decide +kernel
    obtain ⟨token, hmem, hhash, hid, hconsumed⟩ := htoken
    exact ⟨token, hmem, hid, Or.inr ⟨hconsumed, "access-3", "refresh-3", by rw [hhash]; rfl⟩⟩
  obtain ⟨-, -, -, -, -, -, hclosed⟩ := native_family_safety stolen_run
  refine ⟨stolen_run, by decide +kernel, by decide +kernel, by decide +kernel, hburns, ?_⟩
  exact (hclosed [codeCreated, codeExchanged, tokenRotated, accessFound] tokenReplayed
    [accessRefused] 1 rfl (Or.inl hburns) accessRefused (List.mem_singleton.mpr rfl)).1

end TamForge.Auth
