import Mathlib
import TamForge.Auth.Crypto
import TamForge.ProofSupport.Keys

/-!
# Sign-in states are taken once, until the cache forgets them

A consumed state stays in the cache until its lifetime is over or until as many
other states were consumed as the cache holds.  The lifetime of a state that
this manager issued is over before its entry expires, so only eviction brings a
state back.
-/

namespace TamForge.Auth

open Models ProofSupport

variable {manager : OAuthStateManager} {now issuedAt verifiedAt : Int} {nonce state : String}
  {signIns next : SignIns} {event : SignInEvent}

/-! ## The text of a state -/

variable {c : Char}

theorem ne_dot_of_isNonceChar (h : isNonceChar c = true) : c ≠ '.' := by
  rintro rfl
  cases h

theorem ne_dot_of_isHexChar (h : isHexChar c = true) : c ≠ '.' := by
  rintro rfl
  cases h

variable {p : Char → Bool} {text : List Char}

theorem dot_notMem_of_all (hp : ∀ c, p c = true → c ≠ '.') (h : text.all p = true) :
    '.' ∉ text := by
  intro hmem
  exact hp '.' (List.all_eq_true.mp h '.' hmem) rfl

theorem toString_negSucc (n : Nat) :
    (toString (Int.negSucc n)).toList = '-' :: (toString (n + 1)).toList := by
  change ("-" ++ Nat.repr (n + 1)).toList = _
  rw [String.toList_append]
  rfl

theorem dot_notMem_toString (n : Int) : '.' ∉ (toString n).toList := by
  cases n with
  | ofNat n => exact Keys.not_mem_toString rfl n
  | negSucc n =>
    rw [toString_negSucc, List.mem_cons, not_or]
    exact ⟨by decide, Keys.not_mem_toString rfl (n + 1)⟩

theorem toList_issue (manager : OAuthStateManager) (issuedAt : Int) (nonce : String) :
    (issue manager issuedAt nonce).toList =
      "v1".toList ++ '.' :: (toString issuedAt).toList ++ '.' :: nonce.toList ++
        '.' :: (manager.mac (statePayload issuedAt nonce)).toList := by
  have hpayload : (statePayload issuedAt nonce).toList =
      "v1".toList ++ '.' :: (toString issuedAt).toList ++ '.' :: nonce.toList :=
    String.toList_ofList
  rw [issue, String.toList_ofList, hpayload]

theorem splitOn_issue (hnonce : isNonce nonce.toList = true) :
    (issue manager issuedAt nonce).toList.splitOn '.' =
      ["v1".toList, (toString issuedAt).toList, nonce.toList,
        (manager.mac (statePayload issuedAt nonce)).toList] := by
  have hjoined : (issue manager issuedAt nonce).toList =
      ['.'].intercalate ["v1".toList, (toString issuedAt).toList, nonce.toList,
        (manager.mac (statePayload issuedAt nonce)).toList] := by
    rw [toList_issue]
    simp [List.intercalate]
  have hmac := manager.mac_hex (statePayload issuedAt nonce)
  simp only [isNonce, isHexDigest, Bool.and_eq_true] at hnonce hmac
  rw [hjoined]
  apply List.splitOn_intercalate
  · intro part hpart
    simp only [List.mem_cons, List.not_mem_nil, or_false] at hpart
    rcases hpart with rfl | rfl | rfl | rfl
    · decide
    · exact dot_notMem_toString issuedAt
    · exact dot_notMem_of_all (fun _ => ne_dot_of_isNonceChar) hnonce.2
    · exact dot_notMem_of_all (fun _ => ne_dot_of_isHexChar) hmac.2
  · simp

theorem isSpace_of_isDigit (h : c.isDigit = true) : isSpace c = false := by
  simp only [Char.isDigit, Bool.and_eq_true, decide_eq_true_eq] at h
  have hlow : 48 ≤ c.toNat := h.1
  have hhigh : c.toNat ≤ 57 := h.2
  simp [isSpace]
  omega

theorem strip_of_all (h : text.all (fun c => !isSpace c) = true) : strip text = text := by
  have hclean : ∀ other : List Char, (∀ c ∈ other, c ∈ text) →
      other.dropWhile isSpace = other := by
    intro other hsub
    cases other with
    | nil => rfl
    | cons c rest =>
      have hc := List.all_eq_true.mp h c (hsub c (List.mem_cons_self ..))
      rw [Bool.not_eq_true'] at hc
      rw [List.dropWhile_cons_of_neg (by simp [hc])]
  rw [strip, hclean text fun _ => id, hclean text.reverse fun _ => List.mem_reverse.mp,
    List.reverse_reverse]

theorem readNat_toString (n : Nat) : readNat (toString n).toList = some n := by
  have hdigits : (toString n).toList = Nat.toDigits 10 n := Nat.toList_repr
  have hunderscore : '_' ∉ (toString n).toList := Keys.not_mem_toString rfl n
  have hgroups : (toString n).toList.splitOn '_' = [(toString n).toList] := by
    have hspl : (['_'].intercalate [(toString n).toList]).splitOn '_' = [(toString n).toList] :=
      List.splitOn_intercalate '_' (List.forall_mem_singleton.mpr hunderscore)
        (List.cons_ne_nil _ _)
    simpa only [List.intercalate_singleton] using hspl
  have hne : (toString n).toList.isEmpty = false := by
    rw [hdigits]
    simp [Nat.toDigits_ne_nil]
  have hall : (toString n).toList.all Char.isDigit = true := Keys.all_toString (fun _ => id) n
  simp only [readNat, hgroups, List.all_cons, List.all_nil, hne, hall, Bool.not_false,
    Bool.and_true, if_true, List.flatten_cons, List.flatten_nil, List.append_nil]
  rw [hdigits, Nat.ofDigitChars_ten_toDigits]

theorem strip_toString (n : Nat) : strip (toString n).toList = (toString n).toList :=
  strip_of_all (Keys.all_toString (fun _ hc => by rw [isSpace_of_isDigit hc]; rfl) n)

theorem readInt_toString (n : Int) : readInt (toString n).toList = some n := by
  cases n with
  | ofNat n =>
    change readInt (toString n).toList = _
    rw [readInt, strip_toString]
    split
    case h_1 digits htext =>
        have hplus : '+' ∈ (toString n).toList := by rw [htext]; exact List.mem_cons_self ..
        exact absurd hplus (Keys.not_mem_toString rfl n)
    case h_2 digits htext =>
        have hminus : '-' ∈ (toString n).toList := by rw [htext]; exact List.mem_cons_self ..
        exact absurd hminus (Keys.not_mem_toString rfl n)
    case h_3 => rw [readNat_toString]; rfl
  | negSucc n =>
    have hstrip : strip ('-' :: (toString (n + 1)).toList) =
        '-' :: (toString (n + 1)).toList := by
      apply strip_of_all
      rw [List.all_cons, Keys.all_toString (fun _ hc => by rw [isSpace_of_isDigit hc]; rfl)]
      rfl
    rw [toString_negSucc, readInt, hstrip]
    simp only [readNat_toString]
    rfl

/-! ## What a verified state says -/

variable {stateCookie : Option String}

theorem verify_ok (h : verify manager now (some state) stateCookie = .ok ()) :
    checkParts manager now (state.toList.splitOn '.') = .ok () := by
  cases stateCookie with
  | none => cases h
  | some cookie =>
    simp only [verify, bind_ok_iff] at h
    obtain ⟨_, _, hparts⟩ := h
    exact hparts

theorem verify_issue_ok (hnonce : isNonce nonce.toList = true)
    (h : verify manager now (some (issue manager issuedAt nonce)) stateCookie = .ok ()) :
    now ≤ issuedAt + manager.ttlSeconds := by
  have hparts := verify_ok h
  rw [splitOn_issue hnonce] at hparts
  simp only [checkParts, readInt_toString, bind_ok_iff] at hparts
  obtain ⟨_, _, hnew⟩ := hparts
  have hnew := raiseFirst_eq_ok.mp hnew
  simp only [List.forall_mem_cons, Bool.or_eq_false_iff, decide_eq_false_iff_not] at hnew
  have hlate := hnew.2.1.2
  omega

/-! ## Issued states are taken -/

theorem toNat_lt_of_isNonceChar (h : isNonceChar c = true) : c.toNat < 128 := by
  simp only [isNonceChar, Char.isAlphanum, Char.isAlpha, Char.isUpper, Char.isLower, Char.isDigit,
    Bool.or_eq_true, Bool.and_eq_true, decide_eq_true_eq, beq_iff_eq] at h
  rcases h with (((⟨_, hupper⟩ | ⟨_, hlower⟩) | ⟨_, hdigit⟩) | rfl) | rfl
  · exact Nat.lt_of_le_of_lt hupper (by decide)
  · exact Nat.lt_of_le_of_lt hlower (by decide)
  · exact Nat.lt_of_le_of_lt hdigit (by decide)
  · decide
  · decide

theorem toNat_lt_of_isHexChar (h : isHexChar c = true) : c.toNat < 128 := by
  simp only [isHexChar, Char.isDigit, Bool.or_eq_true, Bool.and_eq_true, decide_eq_true_eq] at h
  rcases h with ⟨_, hdigit⟩ | ⟨_, hletter⟩
  · exact Nat.lt_of_le_of_lt hdigit (by decide)
  · exact Nat.lt_of_le_of_lt hletter (by decide)

theorem ascii_of_all (hp : ∀ c, p c = true → c.toNat < 128) (h : text.all p = true) :
    (text.all fun c => decide (c.toNat < 128)) = true := by
  rw [List.all_eq_true] at h ⊢
  intro c hc
  exact decide_eq_true (hp c (h c hc))

theorem isAscii_issue {n : Nat} (hnonce : isNonce nonce.toList = true) :
    isAscii (issue manager n nonce) = true := by
  have hmac := manager.mac_hex (statePayload n nonce)
  simp only [isNonce, isHexDigest, Bool.and_eq_true] at hnonce hmac
  have hnumeral : ((toString (n : Int)).toList.all fun c => decide (c.toNat < 128)) = true := by
    apply Keys.all_toString
    intro c hc
    exact decide_eq_true (toNat_lt_of_isNonceChar (by simp [isNonceChar, Char.isAlphanum, hc]))
  have hnonce := ascii_of_all (fun _ => toNat_lt_of_isNonceChar) hnonce.2
  have hmac := ascii_of_all (fun _ => toNat_lt_of_isHexChar) hmac.2
  simp only [isAscii, toList_issue, List.all_append, List.all_cons, hnumeral, hnonce, hmac]
  decide

theorem length_issue {n : Nat} (hnonce : isNonce nonce.toList = true) :
    (issue manager n nonce).length = (toString n).length + 112 := by
  have hmac := manager.mac_hex (statePayload n nonce)
  simp only [isNonce, isHexDigest, Bool.and_eq_true, beq_iff_eq] at hnonce hmac
  have hver : "v1".toList.length = 2 := rfl
  have hnumeral : (toString (n : Int)).toList.length = (toString n).length :=
    String.length_toList
  have hdigest : (manager.mac (statePayload n nonce)).toList.length = 64 := by
    rw [String.length_toList]
    exact hmac.1
  rw [← String.length_toList, toList_issue]
  simp only [List.length_append, List.length_cons, hver, hnumeral, hdigest, hnonce.1]
  omega

theorem verify_issue {n : Nat} (hnonce : isNonce nonce.toList = true)
    (hlen : (toString n).length ≤ 144) (hlow : (n : Int) ≤ now)
    (hhigh : now ≤ n + manager.ttlSeconds) :
    verify manager now (some (issue manager n nonce)) (some (issue manager n nonce)) =
      .ok () := by
  have hlong : (issue manager n nonce).length = (toString n).length + 112 := length_issue hnonce
  have hcookie : checkCookie (issue manager n nonce) (issue manager n nonce) = .ok () := by
    apply raiseFirst_eq_ok.mpr
    simp only [List.forall_mem_cons, isAscii_issue hnonce, Bool.and_self, Bool.not_true,
      bne_self_eq_false, Bool.not_eq_false', Bool.and_eq_true, decide_eq_true_eq]
    exact ⟨⟨by omega, by omega⟩, ⟨by omega, by omega⟩, trivial, trivial, List.forall_mem_nil _⟩
  have hshape : raiseFirst [("v1".toList != "v1".toList, StateError.invalid),
      (!isNonce nonce.toList, .invalid)] = .ok () := by
    rw [hnonce]
    rfl
  have hnew : (decide (now + (maxClockSkewSeconds : Int) < n) ||
      decide ((manager.ttlSeconds : Int) < now - n)) = false := by
    rw [Bool.or_eq_false_iff, decide_eq_false_iff_not, decide_eq_false_iff_not]
    exact ⟨by omega, by omega⟩
  have hsigned : raiseFirst [
      (String.ofList (manager.mac (statePayload n nonce)).toList !=
        manager.mac (statePayload n nonce), StateError.invalid),
      (decide (now + (maxClockSkewSeconds : Int) < n) ||
        decide ((manager.ttlSeconds : Int) < now - n), .invalid)] = .ok () := by
    rw [hnew, String.ofList_toList, bne_self_eq_false]
    rfl
  simp only [verify, hcookie, splitOn_issue hnonce, checkParts, hshape, readInt_toString]
  exact hsigned

theorem issue_ne {n m : Int} {other : String} (hnonce : isNonce nonce.toList = true)
    (ho : isNonce other.toList = true) (hne : nonce ≠ other) :
    issue manager n nonce ≠ issue manager m other := by
  intro heq
  have hparts := congrArg (fun text => text.toList.splitOn '.') heq
  simp only [splitOn_issue hnonce, splitOn_issue ho, List.cons.injEq] at hparts
  exact hne (String.toList_injective hparts.2.2.1)

/-! ## The cache -/

/-- A call refuses the state and at most forgets expired entries, or takes a
state that its cache does not hold and remembers it. -/
theorem consume_cases (manager : OAuthStateManager) (verifiedAt now : Int)
    (state stateCookie : Option String) (consumed : Consumed) :
    (∃ error, (consume manager verifiedAt now state stateCookie consumed).1 = .error error ∧
      ((consume manager verifiedAt now state stateCookie consumed).2 = consumed ∨
        (consume manager verifiedAt now state stateCookie consumed).2 =
          removeExpired now consumed)) ∨
    ∃ text, state = some text ∧ verify manager verifiedAt state stateCookie = .ok () ∧
      (removeExpired now consumed).any (fun entry => entry.1 == text) = false ∧
      consume manager verifiedAt now state stateCookie consumed =
        (.ok (), remember manager now text (removeExpired now consumed)) := by
  cases hvfy : verify manager verifiedAt state stateCookie with
  | error error =>
    left
    exact ⟨error, by simp [consume, hvfy], Or.inl (by simp [consume, hvfy])⟩
  | ok _ =>
    cases state with
    | none => cases hvfy
    | some text =>
      cases hany : (removeExpired now consumed).any (fun entry => entry.1 == text) with
      | true =>
        left
        exact ⟨.invalid, by simp [consume, hvfy, hany],
          Or.inr (by simp [consume, hvfy, hany])⟩
      | false =>
        right
        exact ⟨text, rfl, rfl, hany, by simp [consume, hvfy, hany]⟩

def taken (manager : OAuthStateManager) (step : Transition SignIns SignInEvent) :
    Option String :=
  match step.label with
  | .issued _ _ => none
  | .consumed verifiedAt now state stateCookie =>
    match (consume manager verifiedAt now state stateCookie step.before.consumed).1 with
    | .ok _ => state
    | .error _ => none

def takenStates (manager : OAuthStateManager) (trace : List (Transition SignIns SignInEvent)) :
    List String :=
  trace.filterMap (taken manager)

/-- The entry of a state with this deadline is in the cache, with no more
entries after it than states taken since; or the cache had to make room; or the
deadline is past. -/
def Remembered (manager : OAuthStateManager) (state : String) (deadline : Int) (since : Nat)
    (signIns : SignIns) : Prop :=
  manager.maxConsumedStates ≤ since ∨ deadline < signIns.clock ∨
    ∃ older newer, signIns.consumed = older ++ (state, deadline) :: newer ∧
      newer.length ≤ since

variable {deadline : Int}

theorem removeExpired_append (state : String) (h : now ≤ deadline) (older newer : Consumed) :
    removeExpired now (older ++ (state, deadline) :: newer) =
      removeExpired now older ++ (state, deadline) :: removeExpired now newer := by
  have hkept : (!decide (deadline < now)) = true := by
    rw [Bool.not_eq_true', decide_eq_false_iff_not]
    omega
  simp only [removeExpired, List.filter_append, List.filter_cons, hkept, if_true]

variable {since : Nat}

theorem remember_append (manager : OAuthStateManager) (now : Int) (state text : String)
    {older newer : Consumed} (hnewer : newer.length ≤ since) :
    manager.maxConsumedStates ≤ since + 1 ∨
      ∃ older' newer', remember manager now text (older ++ (state, deadline) :: newer) =
        older' ++ (state, deadline) :: newer' ∧ newer'.length ≤ since + 1 := by
  by_cases hfull : manager.maxConsumedStates ≤ (older ++ (state, deadline) :: newer).length
  · cases older with
    | nil =>
      left
      simp only [List.nil_append, List.length_cons] at hfull
      omega
    | cons first older =>
      right
      refine ⟨older, newer ++ [(text, now + manager.ttlSeconds)], ?_, ?_⟩
      · simp only [remember, if_pos hfull]
        simp
      · simp only [List.length_append, List.length_singleton]
        omega
  · right
    refine ⟨older, newer ++ [(text, now + manager.ttlSeconds)], ?_, ?_⟩
    · simp only [remember, if_neg hfull]
      simp
    · simp only [List.length_append, List.length_singleton]
      omega

theorem Remembered.step (h : Remembered manager state deadline since signIns)
    (hstep : SignInStep manager signIns event next) :
    Remembered manager state deadline
      (since + (taken manager ⟨signIns, event, next⟩).toList.length) next := by
  rcases h with hroom | hpast | ⟨older, newer, hcache, hnewer⟩
  · exact Or.inl (Nat.le_add_right_of_le hroom)
  · right
    left
    cases hstep with
    | issued later shape fresh => exact lt_of_lt_of_le hpast later
    | consumed later passed unforged => exact lt_of_lt_of_le hpast (le_trans later passed)
  · cases hstep with
    | issued later shape fresh =>
      exact Or.inr (Or.inr ⟨older, newer, hcache, Nat.le_add_right_of_le hnewer⟩)
    | @consumed verifiedAt now text cookie later passed unforged =>
      by_cases hpast : deadline < now
      · exact Or.inr (Or.inl hpast)
      have hkept := removeExpired_append state (not_lt.mp hpast) older newer
      have hshorter : (removeExpired now newer).length ≤ since :=
        Nat.le_trans (List.length_filter_le _ _) hnewer
      rcases consume_cases manager verifiedAt now text cookie signIns.consumed with
        ⟨error, herr, hsame | hfresh⟩ | ⟨text, rfl, hvfy, hnew, htaken⟩
      · refine Or.inr (Or.inr ⟨older, newer, ?_, Nat.le_add_right_of_le hnewer⟩)
        exact hsame.trans hcache
      · refine Or.inr (Or.inr ⟨removeExpired now older, removeExpired now newer, ?_,
          Nat.le_add_right_of_le hshorter⟩)
        change (consume manager verifiedAt now text cookie signIns.consumed).2 = _
        rw [hfresh, hcache, hkept]
      · have hcnt : (taken manager ⟨signIns, .consumed verifiedAt now (some text) cookie,
            { signIns with
              consumed :=
                (consume manager verifiedAt now (some text) cookie signIns.consumed).2,
              clock := now }⟩).toList.length = 1 := by
          simp [taken, htaken]
        rw [hcnt]
        rcases remember_append manager now state text hshorter with
          hroom | ⟨older', newer', hremember, hlen⟩
        · exact Or.inl hroom
        · refine Or.inr (Or.inr ⟨older', newer', ?_, hlen⟩)
          change (consume manager verifiedAt now (some text) cookie signIns.consumed).2 = _
          rw [htaken, hcache, hkept]
          exact hremember

theorem remembered_of_run {trace : List (Transition SignIns SignInEvent)}
    (h : Remembered manager state deadline since signIns)
    (hrun : Run (SignInStep manager) signIns trace next) :
    Remembered manager state deadline (since + (takenStates manager trace).length) next := by
  refine hrun.invariant (I := fun trace signIns =>
    Remembered manager state deadline (since + (takenStates manager trace).length) signIns) h ?_
  intro trace before event after ih hstep
  have hcnt : (takenStates manager (trace ++ [⟨before, event, after⟩])).length =
      (takenStates manager trace).length +
        (taken manager ⟨before, event, after⟩).toList.length := by
    rw [takenStates, List.filterMap_append, List.length_append]
    cases htaken : taken manager ⟨before, event, after⟩ <;> simp [takenStates, htaken]
  rw [hcnt, ← Nat.add_assoc]
  exact ih.step hstep

/-! ## Whole runs -/

def IssuedBefore (signIns : SignIns) : Prop :=
  ∀ call ∈ signIns.issued, call.1 ≤ signIns.clock ∧ isNonce call.2.toList = true

theorem IssuedBefore.step (h : IssuedBefore signIns)
    (hstep : SignInStep manager signIns event next) : IssuedBefore next := by
  cases hstep with
  | @issued now nonce later shape fresh =>
    intro call hcall
    rcases List.mem_append.mp hcall with hold | hnew
    · exact ⟨le_trans (h call hold).1 later, (h call hold).2⟩
    · rw [List.mem_singleton.mp hnew]
      exact ⟨le_refl now, shape⟩
  | consumed later passed unforged =>
    intro call hcall
    exact ⟨le_trans (h call hcall).1 (le_trans later passed), (h call hcall).2⟩

theorem taken_some {step : Transition SignIns SignInEvent}
    (htaken : taken manager step = some state)
    (hstep : SignInStep manager step.before step.label step.after) :
    ∃ verifiedAt now stateCookie, step.label = .consumed verifiedAt now (some state) stateCookie ∧
      step.before.clock ≤ verifiedAt ∧ verifiedAt ≤ now ∧
      verify manager verifiedAt (some state) stateCookie = .ok () ∧
      (∃ call ∈ step.before.issued, state = issue manager call.1 call.2) ∧
      (removeExpired now step.before.consumed).any (fun entry => entry.1 == state) = false ∧
      step.after.consumed =
        remember manager now state (removeExpired now step.before.consumed) := by
  obtain ⟨signIns, event, next⟩ := step
  change SignInStep manager signIns event next at hstep
  cases hstep with
  | issued later shape fresh => cases htaken
  | @consumed verifiedAt now text cookie later passed unforged =>
    rcases consume_cases manager verifiedAt now text cookie signIns.consumed with
      ⟨error, herr, -⟩ | ⟨text, rfl, hvfy, hnew, hconsume⟩
    · simp only [taken, herr] at htaken
      cases htaken
    · simp only [taken, hconsume, Option.some.injEq] at htaken
      subst htaken
      obtain ⟨call, hcall, hissue⟩ := unforged hvfy
      refine ⟨verifiedAt, now, cookie, rfl, later, passed, hvfy,
        ⟨call, hcall, Option.some.inj hissue⟩, hnew, ?_⟩
      exact congrArg Prod.snd hconsume

def SignInEvent.OneReading : SignInEvent → Prop
  | .issued _ _ => True
  | .consumed verifiedAt now _ _ => verifiedAt = now

/-- A state is taken again only after at least as many others were taken as the
cache holds. -/
theorem taken_again_after_eviction {clock : Int}
    {trace before between after : List (Transition SignIns SignInEvent)}
    {first second : Transition SignIns SignInEvent} {final : SignIns}
    (hrun : Run (SignInStep manager) ⟨[], [], clock⟩ trace final)
    (htrace : trace = before ++ first :: (between ++ second :: after))
    (hfirst : taken manager first = some state) (hsecond : taken manager second = some state)
    (hreading : second.label.OneReading) :
    manager.maxConsumedStates ≤ (takenStates manager between).length := by
  obtain ⟨mid, hbefore, hrest⟩ := hrun.of_append htrace
  obtain ⟨rfl, hstep, hrest⟩ := hrest.of_cons
  obtain ⟨mid, hbetween, hrest⟩ := hrest.of_append rfl
  obtain ⟨rfl, hstep', -⟩ := hrest.of_cons
  -- the first call: the state was issued by then, and its entry is the newest
  have hissued : IssuedBefore first.before :=
    hbefore.state_invariant (List.forall_mem_nil _) fun _ _ _ h hstep => h.step hstep
  obtain ⟨verifiedAt, now, cookie, -, hlater, hpassed, -, ⟨call, hcall, hstate⟩, -, hcache⟩ :=
    taken_some hfirst hstep
  have hold : call.1 ≤ now := le_trans (hissued call hcall).1 (le_trans hlater hpassed)
  have hremembered : Remembered manager state (now + manager.ttlSeconds) 0 first.after :=
    Or.inr (Or.inr ⟨_, [], hcache, Nat.le_refl 0⟩)
  have hremembered := remembered_of_run hremembered hbetween
  rw [Nat.zero_add] at hremembered
  -- the second call: the state still lives, so its entry is not expired
  obtain ⟨verifiedAt', now', cookie', hlabel, hlater', -, hverify, -, hnew, -⟩ :=
    taken_some hsecond hstep'
  rw [hlabel] at hreading
  have hnow : verifiedAt' = now' := hreading
  rw [hstate] at hverify
  have halive := verify_issue_ok (hissued call hcall).2 hverify
  rcases hremembered with hroom | hpast | ⟨older, newer, hentry, -⟩
  · exact hroom
  · omega
  · rw [hentry, removeExpired_append state (by omega)] at hnew
    simp at hnew

/-! ## A cache of one entry -/

def firstNonce : String := "q3t6w9zCFJNcQfTjWnZr4u7xADGKaPdSgVkYp2s5v8y"

def secondNonce : String := "8x1A4D7GKaNdRgUkXp2s5v8yBEHMbQeThWmZq4t7w9z"

def sampleMac (payload : String) : String :=
  if payload = statePayload 1787745600 firstNonce then
    "49658a20ae809cb2d2c0f54b545eecb4016a3af6aaabe16a8e7f40fe50e1d8af"
  else
    "022eeadafd98265cf9577327ae6eb9d92abbd38e4ce348e0187d33097f132733"

def sampleManager : OAuthStateManager where
  mac := sampleMac
  mac_hex := by
    intro payload
    rw [sampleMac]
    split <;> decide +kernel
  ttlSeconds := 300
  ttl_min := by decide
  ttl_max := by decide
  maxConsumedStates := 1
  max_pos := by decide
  max_le := by decide

def firstState : String := issue sampleManager 1787745600 firstNonce

def secondState : String := issue sampleManager 1787745600 secondNonce

def sampleInstant : Int := 1787745600

def holding (states : List String) : SignIns :=
  ⟨states.map fun state => (state, sampleInstant + 300),
    [(sampleInstant, firstNonce), (sampleInstant, secondNonce)], sampleInstant⟩

def takeEvent (state : String) : SignInEvent :=
  .consumed sampleInstant sampleInstant (some state) (some state)

def firstTake : Transition SignIns SignInEvent :=
  ⟨holding [], takeEvent firstState, holding [firstState]⟩

def secondTake : Transition SignIns SignInEvent :=
  ⟨holding [firstState], takeEvent secondState, holding [secondState]⟩

def thirdTake : Transition SignIns SignInEvent :=
  ⟨holding [secondState], takeEvent firstState, holding [firstState]⟩

theorem firstNonce_shape : isNonce firstNonce.toList = true := by
  decide +kernel

theorem secondNonce_shape : isNonce secondNonce.toList = true := by
  decide +kernel

theorem firstState_verifies :
    verify sampleManager sampleInstant (some firstState) (some firstState) = .ok () :=
  verify_issue firstNonce_shape (by decide) (le_refl _) (by decide)

theorem secondState_verifies :
    verify sampleManager sampleInstant (some secondState) (some secondState) = .ok () :=
  verify_issue secondNonce_shape (by decide) (le_refl _) (by decide)

theorem firstState_ne_secondState : firstState ≠ secondState :=
  issue_ne firstNonce_shape secondNonce_shape (by decide)

variable {held : List String}

theorem consume_sample
    (hvfy : verify sampleManager sampleInstant (some state) (some state) = .ok ())
    (hheld : held = [] ∨ ∃ other, held = [other]) (hnew : ∀ other ∈ held, other ≠ state) :
    consume sampleManager sampleInstant sampleInstant (some state) (some state)
      (holding held).consumed = (.ok (), (holding [state]).consumed) := by
  have hfresh : removeExpired sampleInstant (holding held).consumed = (holding held).consumed := by
    simp only [removeExpired, List.filter_eq_self, holding, List.mem_map]
    rintro entry ⟨other, -, rfl⟩
    exact (by decide : (!decide (sampleInstant + 300 < sampleInstant)) = true)
  have hany : (holding held).consumed.any (fun entry => entry.1 == state) = false := by
    simpa [holding] using hnew
  have hroom : remember sampleManager sampleInstant state (holding held).consumed =
      (holding [state]).consumed := by
    rcases hheld with rfl | ⟨other, rfl⟩ <;> rfl
  simp only [consume, hvfy, hfresh, hany, hroom]
  rfl

theorem step_take
    (hconsume : consume sampleManager sampleInstant sampleInstant (some state) (some state)
      (holding held).consumed = (.ok (), (holding [state]).consumed))
    (hiss : ∃ call ∈ (holding held).issued, state = issue sampleManager call.1 call.2) :
    SignInStep sampleManager (holding held) (takeEvent state) (holding [state]) := by
  obtain ⟨call, hcall, rfl⟩ := hiss
  have hstep := @SignInStep.consumed sampleManager (holding held) sampleInstant sampleInstant
    (some (issue sampleManager call.1 call.2)) (some (issue sampleManager call.1 call.2))
    (le_refl _) (le_refl _) fun _ => ⟨call, hcall, rfl⟩
  rw [hconsume] at hstep
  exact hstep

theorem taken_take
    (hconsume : consume sampleManager sampleInstant sampleInstant (some state) (some state)
      (holding held).consumed = (.ok (), (holding [state]).consumed))
    : taken sampleManager ⟨holding held, takeEvent state, holding [state]⟩ = some state := by
  simp only [taken, takeEvent, hconsume]

theorem evicting_run :
    ∃ before, Run (SignInStep sampleManager) ⟨[], [], sampleInstant⟩
      (before ++ firstTake :: ([secondTake] ++ thirdTake :: [])) (holding [firstState]) ∧
      taken sampleManager firstTake = some firstState ∧
      taken sampleManager secondTake = some secondState ∧
      taken sampleManager thirdTake = some firstState := by
  have hiss : ∃ before, Run (SignInStep sampleManager) ⟨[], [], sampleInstant⟩ before
      (holding []) := by
    have hfst : SignInStep sampleManager ⟨[], [], sampleInstant⟩
        (.issued sampleInstant firstNonce)
        ⟨[], [(sampleInstant, firstNonce)], sampleInstant⟩ :=
      SignInStep.issued (le_refl _) firstNonce_shape (List.forall_mem_nil _)
    have hsec : SignInStep sampleManager ⟨[], [(sampleInstant, firstNonce)], sampleInstant⟩
        (.issued sampleInstant secondNonce) (holding []) :=
      SignInStep.issued (le_refl _) secondNonce_shape (by decide)
    exact ⟨_, (Run.single hfst).snoc hsec⟩
  obtain ⟨before, hrun⟩ := hiss
  have hfst := consume_sample firstState_verifies (Or.inl rfl) (List.forall_mem_nil _)
  have hsec := consume_sample secondState_verifies (Or.inr ⟨_, rfl⟩)
    (List.forall_mem_singleton.mpr firstState_ne_secondState)
  have hthird := consume_sample firstState_verifies (Or.inr ⟨_, rfl⟩)
    (List.forall_mem_singleton.mpr firstState_ne_secondState.symm)
  have hrun := hrun.snoc (step_take hfst
    ⟨(sampleInstant, firstNonce), List.mem_cons_self .., rfl⟩)
  have hrun := hrun.snoc (step_take hsec
    ⟨(sampleInstant, secondNonce), List.mem_cons_of_mem _ (List.mem_cons_self ..), rfl⟩)
  have hrun := hrun.snoc (step_take hthird
    ⟨(sampleInstant, firstNonce), List.mem_cons_self .., rfl⟩)
  rw [List.append_assoc, List.append_assoc] at hrun
  exact ⟨before, hrun, taken_take hfst, taken_take hsec, taken_take hthird⟩

theorem taken_again_after_one :
    ∃ trace, Run (SignInStep sampleManager) ⟨[], [], sampleInstant⟩ trace
        (holding [firstState]) ∧
      taken sampleManager firstTake = some firstState ∧
      taken sampleManager thirdTake = some firstState ∧
      sampleManager.maxConsumedStates ≤ (takenStates sampleManager [secondTake]).length := by
  obtain ⟨before, hrun, hfirst, -, hthird⟩ := evicting_run
  exact ⟨_, hrun, hfirst, hthird,
    taken_again_after_eviction hrun rfl hfirst hthird rfl⟩

/-- With one other state taken in between, the state is taken twice. -/
theorem state_taken_twice :
    ¬ ∀ (manager : OAuthStateManager) (clock : Int)
      (trace : List (Transition SignIns SignInEvent)) (final : SignIns),
      Run (SignInStep manager) ⟨[], [], clock⟩ trace final →
      (takenStates manager trace).Nodup := by
  intro hclaim
  obtain ⟨before, hrun, hfirst, hsecond, hthird⟩ := evicting_run
  have hnodup := hclaim _ _ _ _ hrun
  have htaken : takenStates sampleManager (firstTake :: ([secondTake] ++ thirdTake :: [])) =
      [firstState, secondState, firstState] := by
    simp [takenStates, hfirst, hsecond, hthird]
  rw [takenStates, List.filterMap_append, ← takenStates, ← takenStates, htaken,
    List.nodup_append] at hnodup
  simp at hnodup

end TamForge.Auth
