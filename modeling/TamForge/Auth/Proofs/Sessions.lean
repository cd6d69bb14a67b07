import TamForge.Auth.Repository

/-!
# What the native tables hold

The rows refer to each other, hashes name at most one row, and every session has
one refresh token that was not consumed.  Under this invariant no lookup sees
two rows, so each call does what its branch says and raises nothing.
-/

namespace TamForge.Auth

open Models ProofSupport

/-! ## The invariant -/

def Current (session : NativeAuthSession) (token : NativeRefreshToken) : Prop :=
  token.sessionId = session.id ∧ token.consumedAt = none

structure Sound (native : Native) : Prop where
  owners : native.db.owners.Keyed Owner.id
  codes : native.db.codes.Keyed NativeExchangeCode.id
  sessions : native.db.sessions.Keyed NativeAuthSession.id
  tokens : native.db.tokens.Keyed NativeRefreshToken.id
  codeHashes : (native.db.codes.rows.map NativeExchangeCode.codeHash).Nodup
  accessHashes : (native.db.sessions.rows.map NativeAuthSession.accessTokenHash).Nodup
  tokenHashes : (native.db.tokens.rows.map NativeRefreshToken.tokenHash).Nodup
  codeOwner : ∀ code ∈ native.db.codes.rows, ∃ owner ∈ native.db.owners.rows,
    owner.id = code.ownerId
  sessionOwner : ∀ session ∈ native.db.sessions.rows, ∃ owner ∈ native.db.owners.rows,
    owner.id = session.ownerId
  tokenSession : ∀ token ∈ native.db.tokens.rows, ∃ session ∈ native.db.sessions.rows,
    session.id = token.sessionId
  current : ∀ session ∈ native.db.sessions.rows, ∃ token ∈ native.db.tokens.rows,
    Current session token ∧
      ∀ other ∈ native.db.tokens.rows, Current session other → other = token
  codeSecret : ∀ code ∈ native.db.codes.rows,
    code.codeHash ∈ native.secrets ∧ code.createdAt ≤ native.clock
  sessionSecret : ∀ session ∈ native.db.sessions.rows,
    session.accessTokenHash ∈ native.secrets ∧ session.createdAt ≤ native.clock
  tokenSecret : ∀ token ∈ native.db.tokens.rows,
    token.tokenHash ∈ native.secrets ∧ token.createdAt ≤ native.clock

theorem sound_empty (clock : Instant) : Sound (emptyNative clock) where
  owners := Serial.keyed_empty _
  codes := Serial.keyed_empty _
  sessions := Serial.keyed_empty _
  tokens := Serial.keyed_empty _
  codeHashes := List.nodup_nil
  accessHashes := List.nodup_nil
  tokenHashes := List.nodup_nil
  codeOwner := List.forall_mem_nil _
  sessionOwner := List.forall_mem_nil _
  tokenSession := List.forall_mem_nil _
  current := List.forall_mem_nil _
  codeSecret := List.forall_mem_nil _
  sessionSecret := List.forall_mem_nil _
  tokenSecret := List.forall_mem_nil _

variable {db : AuthDb} {secrets : List Hash} {now clock : Instant} {lifetimes : NativeLifetimes}

/-! ## What keeps it -/

theorem Sound.later (h : Sound ⟨db, secrets, clock⟩) (hclk : clock ≤ now) (more : List Hash)
    (audit : List NativeAuditEvent) :
    Sound ⟨{ db with audit := audit }, secrets ++ more, now⟩ where
  owners := h.owners
  codes := h.codes
  sessions := h.sessions
  tokens := h.tokens
  codeHashes := h.codeHashes
  accessHashes := h.accessHashes
  tokenHashes := h.tokenHashes
  codeOwner := h.codeOwner
  sessionOwner := h.sessionOwner
  tokenSession := h.tokenSession
  current := h.current
  codeSecret := fun code hcode =>
    ⟨List.mem_append_left _ (h.codeSecret code hcode).1,
      le_trans (h.codeSecret code hcode).2 hclk⟩
  sessionSecret := fun session hsess =>
    ⟨List.mem_append_left _ (h.sessionSecret session hsess).1,
      le_trans (h.sessionSecret session hsess).2 hclk⟩
  tokenSecret := fun token htok =>
    ⟨List.mem_append_left _ (h.tokenSecret token htok).1,
      le_trans (h.tokenSecret token htok).2 hclk⟩

theorem Sound.record (h : Sound ⟨db, secrets, now⟩) (audit : List NativeAuditEvent) :
    Sound ⟨{ db with audit := audit }, secrets, now⟩ := by
  have hlat := h.later (le_refl now) [] audit
  rwa [List.append_nil] at hlat

theorem Sound.deleteExpired (h : Sound ⟨db, secrets, now⟩) :
    Sound ⟨deleteExpiredCodes now db, secrets, now⟩ where
  owners := h.owners
  codes := h.codes.filterRows _
  sessions := h.sessions
  tokens := h.tokens
  codeHashes := h.codeHashes.sublist (List.filter_sublist.map _)
  accessHashes := h.accessHashes
  tokenHashes := h.tokenHashes
  codeOwner := fun code hcode => h.codeOwner code (List.mem_of_mem_filter hcode)
  sessionOwner := h.sessionOwner
  tokenSession := h.tokenSession
  current := h.current
  codeSecret := fun code hcode => h.codeSecret code (List.mem_of_mem_filter hcode)
  sessionSecret := h.sessionSecret
  tokenSecret := h.tokenSecret

theorem upsertOwner_spec {owners : Serial Owner} (h : owners.Keyed Owner.id) (userId : Nat)
    (login : String) :
    (upsertOwner owners userId login).2.Keyed Owner.id ∧
      (upsertOwner owners userId login).1 ∈ (upsertOwner owners userId login).2.rows ∧
      ∀ owner ∈ owners.rows, ∃ kept ∈ (upsertOwner owners userId login).2.rows,
        kept.id = owner.id := by
  unfold upsertOwner
  split
  · rename_i owner hf
    have hmem := List.mem_of_find?_eq_some hf
    refine ⟨h.replace _, Serial.mem_replace_self hmem rfl, ?_⟩
    intro other ho
    by_cases hsame : other.id = owner.id
    · exact ⟨_, Serial.mem_replace_self hmem rfl, hsame.symm⟩
    · exact ⟨other, Serial.mem_replace_of_ne ho hsame, rfl⟩
  · refine ⟨h.insert fun _ => rfl, by simp, ?_⟩
    intro other ho
    exact ⟨other, by simp [ho], rfl⟩

theorem Sound.createExchange (h : Sound ⟨db, secrets, now⟩) {userId : Nat} {login : String}
    {codeHash : Hash} {chal : String} {after : AuthDb} (hsecret : codeHash ∈ secrets)
    (ha : createNativeExchange lifetimes now userId login codeHash chal db = .ok after) :
    Sound ⟨after, secrets, now⟩ := by
  simp only [createNativeExchange, bind_ok_iff] at ha
  obtain ⟨_, hgrd, ha⟩ := ha
  cases ha
  have hgrd := raiseFirst_eq_ok.mp hgrd
  simp only [List.forall_mem_cons, List.any_eq_false, beq_iff_eq] at hgrd
  obtain ⟨-, -, hnew, -⟩ := hgrd
  obtain ⟨howns, hmem, hkept⟩ := upsertOwner_spec h.owners userId login
  constructor
  case owners => exact howns
  case codes => exact h.codes.append rfl
  case sessions => exact h.sessions
  case tokens => exact h.tokens
  case codeHashes => exact Table.nodup_insert h.codeHashes hnew
  case accessHashes => exact h.accessHashes
  case tokenHashes => exact h.tokenHashes
  case codeOwner =>
    intro code hcode
    rcases List.mem_append.mp hcode with hold | hlast
    · obtain ⟨owner, hown, hid⟩ := h.codeOwner code hold
      obtain ⟨kept, hkept, hsame⟩ := hkept owner hown
      exact ⟨kept, hkept, hsame.trans hid⟩
    · rw [List.mem_singleton.mp hlast]
      exact ⟨_, hmem, rfl⟩
  case sessionOwner =>
    intro session hsess
    obtain ⟨owner, hown, hid⟩ := h.sessionOwner session hsess
    obtain ⟨kept, hkept, hsame⟩ := hkept owner hown
    exact ⟨kept, hkept, hsame.trans hid⟩
  case tokenSession => exact h.tokenSession
  case current => exact h.current
  case codeSecret =>
    intro code hcode
    rcases List.mem_append.mp hcode with hold | hlast
    · exact h.codeSecret code hold
    · rw [List.mem_singleton.mp hlast]
      exact ⟨hsecret, le_refl now⟩
  case sessionSecret => exact h.sessionSecret
  case tokenSecret => exact h.tokenSecret

variable {code : NativeExchangeCode}

theorem Sound.consumeCode (h : Sound ⟨db, secrets, now⟩) (hcode : code ∈ db.codes.rows) :
    Sound ⟨{ db with
      codes := db.codes.replace NativeExchangeCode.id { code with consumedAt := some now } },
      secrets, now⟩ := by
  have hmem : ∀ other ∈ (db.codes.replace NativeExchangeCode.id
      { code with consumedAt := some now }).rows, ∃ old ∈ db.codes.rows,
      old.codeHash = other.codeHash ∧ old.ownerId = other.ownerId ∧
        old.createdAt = other.createdAt := by
    intro other ho
    rcases Serial.mem_replace ho with rfl | ⟨hold, -⟩
    · exact ⟨code, hcode, rfl, rfl, rfl⟩
    · exact ⟨other, hold, rfl, rfl, rfl⟩
  constructor
  case owners => exact h.owners
  case codes => exact h.codes.replace _
  case sessions => exact h.sessions
  case tokens => exact h.tokens
  case codeHashes =>
    refine h.codes.nodup_replace hcode ?_ h.codeHashes ?_
    · rfl
    intro other ho hsame
    have heq := List.inj_on_of_nodup_map h.codeHashes ho hcode hsame
    rw [heq]
  case accessHashes => exact h.accessHashes
  case tokenHashes => exact h.tokenHashes
  case codeOwner =>
    intro other ho
    obtain ⟨old, hold, -, hown, -⟩ := hmem other ho
    rw [← hown]
    exact h.codeOwner old hold
  case sessionOwner => exact h.sessionOwner
  case tokenSession => exact h.tokenSession
  case current => exact h.current
  case codeSecret =>
    intro other ho
    obtain ⟨old, hold, hhash, -, hcrt⟩ := hmem other ho
    rw [← hhash, ← hcrt]
    exact h.codeSecret old hold
  case sessionSecret => exact h.sessionSecret
  case tokenSecret => exact h.tokenSecret

variable {access refresh : Hash}

theorem Sound.createSession (h : Sound ⟨db, secrets, now⟩) (owner : Owner)
    (hown : ∃ owner ∈ db.owners.rows, owner.id = code.ownerId) (hacc : access ∈ secrets)
    (hrefr : refresh ∈ secrets)
    (hnewAcc : ∀ session ∈ db.sessions.rows, session.accessTokenHash ≠ access)
    (hnewRefr : ∀ token ∈ db.tokens.rows, token.tokenHash ≠ refresh) :
    Sound ⟨(createSession lifetimes now code owner access refresh db).2, secrets, now⟩ := by
  have hsess : ∀ {token}, token ∈ db.tokens.rows → token.sessionId ≠ db.sessions.next := by
    intro token htok
    obtain ⟨session, hsess, hid⟩ := h.tokenSession token htok
    have hlt := h.sessions.lt session hsess
    change session.id < db.sessions.next at hlt
    omega
  constructor
  case owners => exact h.owners
  case codes => exact h.codes
  case sessions => exact h.sessions.append rfl
  case tokens => exact h.tokens.append rfl
  case codeHashes => exact h.codeHashes
  case accessHashes => exact Table.nodup_insert h.accessHashes hnewAcc
  case tokenHashes => exact Table.nodup_insert h.tokenHashes hnewRefr
  case codeOwner => exact h.codeOwner
  case sessionOwner =>
    intro session hmem
    rcases List.mem_append.mp hmem with hold | hlast
    · exact h.sessionOwner session hold
    · rw [List.mem_singleton.mp hlast]
      exact hown
  case tokenSession =>
    intro token hmem
    rcases List.mem_append.mp hmem with hold | hlast
    · obtain ⟨session, hsess, hid⟩ := h.tokenSession token hold
      exact ⟨session, List.mem_append_left _ hsess, hid⟩
    · rw [List.mem_singleton.mp hlast]
      exact ⟨_, List.mem_append_right _ (List.mem_singleton.mpr rfl), rfl⟩
  case current =>
    intro session hmem
    rcases List.mem_append.mp hmem with hold | hlast
    · obtain ⟨token, htok, hcur, huniq⟩ := h.current session hold
      refine ⟨token, List.mem_append_left _ htok, hcur, ?_⟩
      intro other ho hos
      rcases List.mem_append.mp ho with holdTok | hnewTok
      · exact huniq other holdTok hos
      · rw [List.mem_singleton.mp hnewTok] at hos
        have hid : db.sessions.next = session.id := hos.1
        have hlt := h.sessions.lt session hold
        change session.id < db.sessions.next at hlt
        omega
    · rw [List.mem_singleton.mp hlast]
      refine ⟨_, List.mem_append_right _ (List.mem_singleton.mpr rfl), ⟨rfl, rfl⟩, ?_⟩
      intro other ho hos
      rcases List.mem_append.mp ho with holdTok | hnewTok
      · exact absurd hos.1 (hsess holdTok)
      · exact List.mem_singleton.mp hnewTok
  case codeSecret => exact h.codeSecret
  case sessionSecret =>
    intro session hmem
    rcases List.mem_append.mp hmem with hold | hlast
    · exact h.sessionSecret session hold
    · rw [List.mem_singleton.mp hlast]
      exact ⟨hacc, le_refl now⟩
  case tokenSecret =>
    intro token hmem
    rcases List.mem_append.mp hmem with hold | hlast
    · exact h.tokenSecret token hold
    · rw [List.mem_singleton.mp hlast]
      exact ⟨hrefr, le_refl now⟩

variable {token : NativeRefreshToken} {session : NativeAuthSession}

/-- The rows of `tokens` after a rotation. -/
theorem mem_rotateTokens {other : NativeRefreshToken} (owner : Owner)
    (ho : other ∈
      (rotateTokens lifetimes now token session owner access refresh db).2.tokens.rows)
    : other = { token with consumedAt := some now, replacedById := some db.tokens.next } ∨
      (other.id ≠ token.id ∧ (other ∈ db.tokens.rows ∨
        other = ⟨db.tokens.next, session.id, refresh, now + lifetimes.refresh, none, none, none,
          now⟩)) := by
  rcases Serial.mem_replace ho with rfl | ⟨hmem, hne⟩
  · exact Or.inl rfl
  · refine Or.inr ⟨hne, ?_⟩
    rcases List.mem_append.mp hmem with hold | hlast
    · exact Or.inl hold
    · exact Or.inr (List.mem_singleton.mp hlast)

theorem Sound.rotateTokens (h : Sound ⟨db, secrets, now⟩) (owner : Owner)
    (htok : token ∈ db.tokens.rows) (hsess : session ∈ db.sessions.rows)
    (hid : session.id = token.sessionId) (hopen : token.consumedAt = none)
    (hacc : access ∈ secrets) (hrefr : refresh ∈ secrets)
    (hnewAcc : ∀ session ∈ db.sessions.rows, session.accessTokenHash ≠ access)
    (hnewRefr : ∀ token ∈ db.tokens.rows, token.tokenHash ≠ refresh) :
    Sound ⟨(rotateTokens lifetimes now token session owner access refresh db).2, secrets,
      now⟩ := by
  have hlt : token.id < db.tokens.next := h.tokens.lt token htok
  constructor
  case owners => exact h.owners
  case codes => exact h.codes
  case sessions => exact h.sessions.replace _
  case tokens => exact Serial.Keyed.replace (h.tokens.append rfl) _
  case codeHashes => exact h.codeHashes
  case accessHashes =>
    refine h.sessions.nodup_replace hsess ?_ h.accessHashes ?_
    · rfl
    · intro other ho hsame
      exact absurd hsame (hnewAcc other ho)
  case tokenHashes =>
    refine Serial.Keyed.nodup_replace (h.tokens.append rfl) (List.mem_append_left _ htok) ?_
      (Table.nodup_insert h.tokenHashes hnewRefr) ?_
    · rfl
    · intro other ho hsame
      rcases List.mem_append.mp ho with hold | hlast
      · have heq := List.inj_on_of_nodup_map h.tokenHashes hold htok hsame
        rw [heq]
      · rw [List.mem_singleton.mp hlast] at hsame
        exact absurd hsame.symm (hnewRefr token htok)
  case codeOwner => exact h.codeOwner
  case sessionOwner =>
    intro other ho
    rcases Serial.mem_replace ho with rfl | ⟨hold, -⟩
    · exact h.sessionOwner session hsess
    · exact h.sessionOwner other hold
  case tokenSession =>
    have hfind : ∀ {other : NativeRefreshToken}, (∃ found ∈ db.sessions.rows,
        found.id = other.sessionId) → ∃ found ∈ (db.sessions.replace NativeAuthSession.id
          { session with
            accessTokenHash := access, accessExpiresAt := now + lifetimes.access }).rows,
        found.id = other.sessionId := by
      rintro other ⟨found, hf, hfoundId⟩
      by_cases hsame : found.id = session.id
      · exact ⟨_, Serial.mem_replace_self hsess rfl, hsame.symm.trans hfoundId⟩
      · exact ⟨found, Serial.mem_replace_of_ne hf hsame, hfoundId⟩
    intro other ho
    rcases mem_rotateTokens owner ho with rfl | ⟨-, hold | rfl⟩
    · exact hfind (h.tokenSession token htok)
    · exact hfind (h.tokenSession other hold)
    · exact hfind ⟨session, hsess, rfl⟩
  case current =>
    have hkeep : ∀ {other : NativeRefreshToken}, other ∈ db.tokens.rows → other.id ≠ token.id →
        other ∈ (Auth.rotateTokens lifetimes now token session owner access refresh
          db).2.tokens.rows :=
      fun ho hne => Serial.mem_replace_of_ne (List.mem_append_left _ ho) hne
    intro other ho
    rcases Serial.mem_replace ho with rfl | ⟨hold, hne⟩
    · refine ⟨⟨db.tokens.next, session.id, refresh, now + lifetimes.refresh, none, none, none,
        now⟩, Serial.mem_replace_of_ne (List.mem_append_right _ (List.mem_singleton.mpr rfl))
          (Nat.ne_of_gt hlt), ⟨rfl, rfl⟩, ?_⟩
      intro rival hrival hcur
      rcases mem_rotateTokens owner hrival with rfl | ⟨hrivalId, holdRival | rfl⟩
      · cases hcur.2
      · obtain ⟨kept, -, -, huniq⟩ := h.current session hsess
        have hfst := huniq rival holdRival hcur
        have hsec := huniq token htok ⟨hid.symm, hopen⟩
        exact absurd (congrArg NativeRefreshToken.id (hfst.trans hsec.symm)) hrivalId
      · rfl
    · obtain ⟨kept, hkept, hcur, huniq⟩ := h.current other hold
      have hotherTok : kept.id ≠ token.id := by
        intro hsame
        have heq := h.tokens.eq_of_key hkept htok hsame
        rw [heq] at hcur
        exact hne (hcur.1.symm.trans hid.symm)
      refine ⟨kept, hkeep hkept hotherTok, hcur, ?_⟩
      intro rival hrival hrivalCur
      rcases mem_rotateTokens owner hrival with rfl | ⟨-, holdRival | rfl⟩
      · cases hrivalCur.2
      · exact huniq rival holdRival hrivalCur
      · exact absurd hrivalCur.1.symm hne
  case codeSecret => exact h.codeSecret
  case sessionSecret =>
    intro other ho
    rcases Serial.mem_replace ho with rfl | ⟨hold, -⟩
    · exact ⟨hacc, (h.sessionSecret session hsess).2⟩
    · exact h.sessionSecret other hold
  case tokenSecret =>
    intro other ho
    rcases mem_rotateTokens owner ho with rfl | ⟨-, hold | rfl⟩
    · exact h.tokenSecret token htok
    · exact h.tokenSecret other hold
    · exact ⟨hrefr, le_refl now⟩

structure Stamped (token stamped : NativeRefreshToken) : Prop where
  id : stamped.id = token.id
  sessionId : stamped.sessionId = token.sessionId
  tokenHash : stamped.tokenHash = token.tokenHash
  consumedAt : stamped.consumedAt = token.consumedAt
  createdAt : stamped.createdAt = token.createdAt

theorem stamped (now : Instant) (sessId : Nat) (token : NativeRefreshToken) :
    Stamped token (token.stamp now sessId) := by
  unfold NativeRefreshToken.stamp
  split <;> exact ⟨rfl, rfl, rfl, rfl, rfl⟩

structure StampedSession (session stamped : NativeAuthSession) : Prop where
  id : stamped.id = session.id
  ownerId : stamped.ownerId = session.ownerId
  accessTokenHash : stamped.accessTokenHash = session.accessTokenHash
  createdAt : stamped.createdAt = session.createdAt

theorem stampedSession (now : Instant) (sessId : Nat) (session : NativeAuthSession) :
    StampedSession session (session.stamp now sessId) := by
  unfold NativeAuthSession.stamp
  split <;> exact ⟨rfl, rfl, rfl, rfl⟩

def stampFamily (now : Instant) (sessionId : Nat) (db : AuthDb) : AuthDb :=
  { db with
    sessions := { db.sessions with rows := db.sessions.rows.map (·.stamp now sessionId) }
    tokens := { db.tokens with rows := db.tokens.rows.map (·.stamp now sessionId) } }

theorem Sound.revokeFamily_ok (h : Sound ⟨db, secrets, now⟩) (sessId : Nat) :
    revokeFamily now sessId db = .ok (stampFamily now sessId db) := by
  have hgrd : raiseFirst [
      (db.sessions.rows.any (fun session => session.id == sessId &&
        session.revokedAt.isNone && decide (now < session.createdAt)), StoreError.integrity),
      (db.tokens.rows.any (fun token => token.sessionId == sessId &&
        token.revokedAt.isNone && decide (now < token.createdAt)), .integrity)] = .ok () := by
    apply raiseFirst_eq_ok.mpr
    simp only [List.forall_mem_cons, List.any_eq_false]
    refine ⟨?_, ?_, List.forall_mem_nil _⟩
    · intro session hsess
      have hcrt : session.createdAt ≤ now := (h.sessionSecret session hsess).2
      simp [hcrt]
    · intro token htok
      have hcrt : token.createdAt ≤ now := (h.tokenSecret token htok).2
      simp [hcrt]
  simp only [revokeFamily, hgrd]
  rfl

theorem Sound.stampFamily (h : Sound ⟨db, secrets, now⟩) (sessId : Nat) :
    Sound ⟨stampFamily now sessId db, secrets, now⟩ := by
  constructor
  case owners => exact h.owners
  case codes => exact h.codes
  case sessions => exact h.sessions.mapRows fun session => (stampedSession now sessId session).id
  case tokens => exact h.tokens.mapRows fun token => (stamped now sessId token).id
  case codeHashes => exact h.codeHashes
  case accessHashes =>
    have hcol : (db.sessions.rows.map (·.stamp now sessId)).map
        NativeAuthSession.accessTokenHash =
        db.sessions.rows.map NativeAuthSession.accessTokenHash := by
      rw [List.map_map]
      exact List.map_congr_left fun session _ =>
        (stampedSession now sessId session).accessTokenHash
    exact hcol ▸ h.accessHashes
  case tokenHashes =>
    have hcol : (db.tokens.rows.map (·.stamp now sessId)).map
        NativeRefreshToken.tokenHash = db.tokens.rows.map NativeRefreshToken.tokenHash := by
      rw [List.map_map]
      exact List.map_congr_left fun token _ => (stamped now sessId token).tokenHash
    exact hcol ▸ h.tokenHashes
  case codeOwner => exact h.codeOwner
  case sessionOwner =>
    intro session hsess
    obtain ⟨old, hold, rfl⟩ := List.mem_map.mp hsess
    rw [(stampedSession now sessId old).ownerId]
    exact h.sessionOwner old hold
  case tokenSession =>
    intro token htok
    obtain ⟨old, hold, rfl⟩ := List.mem_map.mp htok
    obtain ⟨session, hsess, hid⟩ := h.tokenSession old hold
    refine ⟨session.stamp now sessId, List.mem_map_of_mem hsess, ?_⟩
    rw [(stampedSession now sessId session).id, (stamped now sessId old).sessionId, hid]
  case current =>
    have hcur : ∀ session token, Current (session.stamp now sessId)
        (token.stamp now sessId) ↔ Current session token := by
      intro session token
      rw [Current, Current, (stampedSession now sessId session).id,
        (stamped now sessId token).sessionId, (stamped now sessId token).consumedAt]
    intro session hsess
    obtain ⟨old, hold, rfl⟩ := List.mem_map.mp hsess
    obtain ⟨token, htok, hopen, huniq⟩ := h.current old hold
    refine ⟨token.stamp now sessId, List.mem_map_of_mem htok, (hcur old token).mpr hopen,
      ?_⟩
    intro other ho hos
    obtain ⟨oldToken, holdTok, rfl⟩ := List.mem_map.mp ho
    rw [huniq oldToken holdTok ((hcur old oldToken).mp hos)]
  case codeSecret => exact h.codeSecret
  case sessionSecret =>
    intro session hsess
    obtain ⟨old, hold, rfl⟩ := List.mem_map.mp hsess
    rw [(stampedSession now sessId old).accessTokenHash,
      (stampedSession now sessId old).createdAt]
    exact h.sessionSecret old hold
  case tokenSecret =>
    intro token htok
    obtain ⟨old, hold, rfl⟩ := List.mem_map.mp htok
    rw [(stamped now sessId old).tokenHash, (stamped now sessId old).createdAt]
    exact h.tokenSecret old hold

/-! ## What each call does -/

theorem exchange_cases (lifetimes : NativeLifetimes) (codeHash : Hash) (chal : String)
    (h : Sound ⟨db, secrets, now⟩)
    (hnewAcc : ∀ session ∈ db.sessions.rows, session.accessTokenHash ≠ access)
    (hnewRefr : ∀ token ∈ db.tokens.rows, token.tokenHash ≠ refresh) :
    (∃ audit, consumeNativeExchangeAndCreateSession lifetimes now codeHash chal access
        refresh db = .ok (none, { db with audit := audit })) ∨
    ∃ code owner, code ∈ db.codes.rows ∧ code.usable now codeHash chal = true ∧
      consumeNativeExchangeAndCreateSession lifetimes now codeHash chal access refresh db =
        .ok (some (createSession lifetimes now code owner access refresh db).1,
          (createSession lifetimes now code owner access refresh { db with
            codes := db.codes.replace NativeExchangeCode.id
              { code with consumedAt := some now } }).2) := by
  have husable : ∀ code ∈ db.codes.rows, code.usable now codeHash chal = true →
      code.codeHash = codeHash := by
    intro code _ husable
    simp only [NativeExchangeCode.usable, Bool.and_eq_true, beq_iff_eq] at husable
    exact husable.1.1.1
  rcases Table.filter_sub_unique h.codeHashes husable with hnone | ⟨code, hcode, hgood, hone⟩
  · left
    rcases Table.filter_cases h.codeHashes codeHash with ⟨code, -, -, hfilt⟩ | ⟨-, hfilt⟩
    · refine ⟨db.audit ++ [exchangeDenied now codeHash code], ?_⟩
      simp only [consumeNativeExchangeAndCreateSession, hnone, hfilt, oneOrNone]
      rfl
    · refine ⟨db.audit, ?_⟩
      simp only [consumeNativeExchangeAndCreateSession, hnone, hfilt, oneOrNone]
      rfl
  · right
    obtain ⟨owner, hown, hid⟩ := h.codeOwner code hcode
    have hf := Table.filter_unique h.owners.nodup hown hid
    have hcrt : code.createdAt ≤ now := (h.codeSecret code hcode).2
    have hgrd : raiseFirst [
        (decide (now < code.createdAt), StoreError.integrity),
        (db.sessions.rows.any (fun session => session.accessTokenHash == access), .integrity),
        (db.tokens.rows.any (fun token => token.tokenHash == refresh), .integrity)] = .ok () := by
      apply raiseFirst_eq_ok.mpr
      simp only [List.forall_mem_cons, List.any_eq_false, beq_iff_eq, decide_eq_false_iff_not,
        not_lt]
      exact ⟨hcrt, hnewAcc, hnewRefr, List.forall_mem_nil _⟩
    refine ⟨code, owner, hcode, hgood, ?_⟩
    simp only [consumeNativeExchangeAndCreateSession, hone, oneOrNone, hf, one, bind,
      Except.bind, hgrd]
    rfl

theorem refreshRows_cases (h : Sound ⟨db, secrets, now⟩) (refresh : Hash) :
    ((∀ token ∈ db.tokens.rows, token.tokenHash ≠ refresh) ∧ refreshRows refresh db = []) ∨
    ∃ token session owner, token ∈ db.tokens.rows ∧ token.tokenHash = refresh ∧
      session ∈ db.sessions.rows ∧ session.id = token.sessionId ∧
      refreshRows refresh db = [(token, session, owner)] := by
  rcases Table.filter_cases h.tokenHashes refresh with
    ⟨token, htok, hhash, hfilt⟩ | ⟨hmis, hfilt⟩
  · right
    obtain ⟨session, hsess, hid⟩ := h.tokenSession token htok
    obtain ⟨owner, hown, hownId⟩ := h.sessionOwner session hsess
    refine ⟨token, session, owner, htok, hhash, hsess, hid, ?_⟩
    rw [refreshRows, hfilt, List.flatMap_singleton,
      Table.filter_unique h.sessions.nodup hsess hid, List.flatMap_singleton,
      Table.filter_unique h.owners.nodup hown hownId]
    rfl
  · left
    refine ⟨hmis, ?_⟩
    rw [refreshRows, hfilt, List.flatMap_nil]

/-- A token is rotated, or presented again and its family revoked, or nothing but
the audit changes. -/
theorem rotate_cases (lifetimes : NativeLifetimes) (presented : Hash) (h : Sound ⟨db, secrets, now⟩)
    (hnewAcc : ∀ session ∈ db.sessions.rows, session.accessTokenHash ≠ access)
    (hnewRefr : ∀ token ∈ db.tokens.rows, token.tokenHash ≠ refresh) :
    (∃ audit, rotateNativeRefreshToken lifetimes now presented access refresh db =
        .ok (none, { db with audit := audit }) ∧
      ∀ token ∈ db.tokens.rows, token.tokenHash = presented → token.consumedAt.isSome = true →
        ∀ session ∈ db.sessions.rows, session.id = token.sessionId →
          session.revokedAt.isSome = true) ∨
    ∃ token session owner, token ∈ db.tokens.rows ∧ token.tokenHash = presented ∧
      session ∈ db.sessions.rows ∧ session.id = token.sessionId ∧
      ((∃ audit, rotateNativeRefreshToken lifetimes now presented access refresh db =
          .ok (none, { stampFamily now session.id db with audit := audit })) ∨
        token.consumedAt = none ∧ session.revokedAt = none ∧
        rotateNativeRefreshToken lifetimes now presented access refresh db =
          .ok (some (rotateTokens lifetimes now token session owner access refresh db).1,
            (rotateTokens lifetimes now token session owner access refresh db).2)) := by
  rcases refreshRows_cases h presented with
    ⟨hmis, hrows⟩ | ⟨token, session, owner, htok, hhash, hsess, hid, hrows⟩
  · left
    refine ⟨db.audit, by simp only [rotateNativeRefreshToken, hrows, oneOrNone]; rfl, ?_⟩
    intro token htok hhash
    exact absurd hhash (hmis token htok)
  cases href : refreshRefused now token session with
  | true =>
    cases hrpl : token.consumedAt.isSome && session.revokedAt.isNone with
    | true =>
      right
      refine ⟨token, session, owner, htok, hhash, hsess, hid, Or.inl ?_⟩
      refine ⟨db.audit ++ [refreshDenied now presented token session], ?_⟩
      simp only [rotateNativeRefreshToken, hrows, oneOrNone, bind, Except.bind, href,
        hrpl, if_true, h.revokeFamily_ok]
      rfl
    | false =>
      left
      refine ⟨db.audit ++ [refreshDenied now presented token session], ?_, ?_⟩
      · simp only [rotateNativeRefreshToken, hrows, oneOrNone, bind, Except.bind, href,
          hrpl, if_true]
        rfl
      · intro other ho hotherHash hconsumed row hrow hrowId
        have heq := List.inj_on_of_nodup_map h.tokenHashes ho htok
          (hotherHash.trans hhash.symm)
        subst heq
        have hsame := h.sessions.eq_of_key hrow hsess (hrowId.trans hid.symm)
        subst hsame
        simpa [hconsumed] using hrpl
  | false =>
    right
    refine ⟨token, session, owner, htok, hhash, hsess, hid, Or.inr ?_⟩
    have hopen := href
    simp only [refreshRefused, Bool.or_eq_false_iff] at hopen
    have htokCrt : token.createdAt ≤ now := (h.tokenSecret token htok).2
    have hsessCrt : session.createdAt ≤ now := (h.sessionSecret session hsess).2
    have hlifetime : 0 < lifetimes.access :=
      lt_of_lt_of_le (seconds_pos (by decide)) lifetimes.access_bounds.1
    have hgrd : raiseFirst [
        (db.tokens.rows.any (fun other => other.tokenHash == refresh), StoreError.integrity),
        (decide (now < token.createdAt), .integrity),
        (db.sessions.rows.any (fun other => other.id != session.id &&
          other.accessTokenHash == access), .integrity),
        (decide (now + lifetimes.access ≤ session.createdAt), .integrity)] = .ok () := by
      apply raiseFirst_eq_ok.mpr
      simp only [List.forall_mem_cons, List.any_eq_false, beq_iff_eq, decide_eq_false_iff_not,
        not_lt, not_le, Bool.and_eq_true, not_and]
      refine ⟨hnewRefr, htokCrt, fun other ho _ => hnewAcc other ho, ?_,
        List.forall_mem_nil _⟩
      exact lt_of_le_of_lt hsessCrt (Int.lt_add_of_pos_right now hlifetime)
    refine ⟨Option.isSome_eq_false_iff.mp hopen.1.1.1 |> Option.isNone_iff_eq_none.mp,
      Option.isSome_eq_false_iff.mp hopen.2 |> Option.isNone_iff_eq_none.mp, ?_⟩
    simp only [rotateNativeRefreshToken, hrows, oneOrNone, bind, Except.bind, href, hgrd]
    rfl

theorem revoke_cases (h : Sound ⟨db, secrets, now⟩) (presented : Hash) :
    (revokeNativeSession now presented db = .ok (false, db) ∧
      ∀ token ∈ db.tokens.rows, token.tokenHash ≠ presented) ∨
    ∃ token session audit, token ∈ db.tokens.rows ∧ token.tokenHash = presented ∧
      session ∈ db.sessions.rows ∧ session.id = token.sessionId ∧
      revokeNativeSession now presented db =
        .ok (true, { stampFamily now session.id db with audit := audit }) := by
  rcases Table.filter_cases h.tokenHashes presented with
    ⟨token, htok, hhash, hfilt⟩ | ⟨hmis, hfilt⟩
  · right
    obtain ⟨session, hsess, hid⟩ := h.tokenSession token htok
    refine ⟨token, session, db.audit ++ [revokeSucceeded presented session], htok, hhash,
      hsess, hid, ?_⟩
    simp only [revokeNativeSession, hfilt, List.flatMap_singleton,
      Table.filter_unique h.sessions.nodup hsess hid, oneOrNone, bind, Except.bind,
      h.revokeFamily_ok]
    rfl
  · left
    refine ⟨?_, hmis⟩
    simp only [revokeNativeSession, hfilt, List.flatMap_nil, oneOrNone]
    rfl

theorem activeRows_cases {κ : Type} [BEq κ] [LawfulBEq κ] [DecidableEq κ]
    {key : NativeAuthSession → κ} (now : Instant) (h : Sound ⟨db, secrets, clock⟩)
    (hnd : (db.sessions.rows.map key).Nodup) (k : κ) :
    activeRows now (fun session => key session == k) db = [] ∨
    ∃ session token, session ∈ db.sessions.rows ∧ key session = k ∧ session.revokedAt = none ∧
      activeRows now (fun session => key session == k) db = [(session, token)] := by
  have hwanted : ∀ session ∈ db.sessions.rows, (key session == k && session.revokedAt.isNone &&
      decide (now < session.accessExpiresAt)) = true → key session = k := by
    intro session _ hsess
    simp only [Bool.and_eq_true, beq_iff_eq] at hsess
    exact hsess.1.1
  rcases Table.filter_sub_unique hnd hwanted with hnone | ⟨session, hsess, hgood, hone⟩
  · left
    rw [activeRows, hnone, List.flatMap_nil]
  · obtain ⟨current, -, -, huniq⟩ := h.current session hsess
    have htoks : ∀ token ∈ db.tokens.rows, (token.sessionId == session.id &&
        token.consumedAt.isNone && token.revokedAt.isNone && decide (now < token.expiresAt)) =
        true → token.id = current.id := by
      intro token htok hact
      simp only [Bool.and_eq_true, beq_iff_eq, Option.isNone_iff_eq_none] at hact
      rw [huniq token htok ⟨hact.1.1.1, hact.1.1.2⟩]
    simp only [Bool.and_eq_true, beq_iff_eq, Option.isNone_iff_eq_none] at hgood
    rcases Table.filter_sub_unique h.tokens.nodup htoks with hnone | ⟨token, -, -, htok⟩
    · left
      rw [activeRows, hone, List.flatMap_singleton, hnone, List.map_nil]
    · right
      refine ⟨session, token, hsess, hgood.1.1, hgood.1.2, ?_⟩
      rw [activeRows, hone, List.flatMap_singleton, htok, List.map_singleton]

theorem find_cases (now : Instant) (h : Sound ⟨db, secrets, clock⟩) (access : Hash) :
    ∃ res, findActiveNativeSession now access db = .ok res ∧
      ∀ found, res = some found → ∃ session ∈ db.sessions.rows,
        session.accessTokenHash = access ∧ session.revokedAt = none ∧
        found.sessionId = session.id := by
  rcases activeRows_cases now h h.accessHashes access with
    hnone | ⟨session, token, hsess, hhash, hopen, hone⟩
  · refine ⟨none, ?_, fun found hf => by cases hf⟩
    rw [findActiveNativeSession, hnone]
    rfl
  · obtain ⟨owner, hown, hid⟩ := h.sessionOwner session hsess
    refine ⟨some ⟨session.id, session.ownerId, owner.githubUserId, owner.githubLogin,
      session.accessTokenHash, session.accessExpiresAt, token.tokenHash, token.expiresAt,
      session.revokedAt⟩, ?_, ?_⟩
    · simp only [findActiveNativeSession, hone, List.flatMap_singleton,
        Table.filter_unique h.owners.nodup hown hid]
      rfl
    · intro found hf
      cases hf
      exact ⟨session, hsess, hhash, hopen, rfl⟩

theorem isActive_cases (now : Instant) (h : Sound ⟨db, secrets, clock⟩) (sessId : Nat) :
    ∃ active, isNativeSessionActive now sessId db = .ok active ∧
      (active = true → ∃ session ∈ db.sessions.rows, session.id = sessId ∧
        session.revokedAt = none) := by
  rcases activeRows_cases now h h.sessions.nodup sessId with
    hnone | ⟨session, token, hsess, hid, hopen, hone⟩
  · refine ⟨false, ?_, fun hact => by cases hact⟩
    rw [isNativeSessionActive, hnone]
    rfl
  · refine ⟨true, ?_, fun _ => ⟨session, hsess, hid, hopen⟩⟩
    rw [isNativeSessionActive, hone]
    rfl

end TamForge.Auth
