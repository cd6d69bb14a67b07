import Mathlib.Data.List.Pairwise
import TamForge.Interviews.Redaction

/-!
# What a redaction hides and a release proves

Spans that are sorted and do not overlap stand one behind the other, so that the
splices from right to left leave what stands between them.
-/

namespace TamForge.Interviews

open Models ProofSupport

variable {text other : PyString} {first second span : RedactionSpan}
  {spans ordered rest : List RedactionSpan} {position : Nat}

/-! ## Spans -/

def RedactionSpan.Covers (span : RedactionSpan) (position : Nat) : Prop :=
  span.start ≤ position ∧ position < span.stop

def Disjoint (first second : RedactionSpan) : Prop :=
  ∀ position, ¬(first.Covers position ∧ second.Covers position)

def InTurn (ordered : List RedactionSpan) : Prop :=
  ordered.Pairwise fun earlier later => earlier.stop ≤ later.start

theorem Disjoint.symm (h : Disjoint first second) : Disjoint second first :=
  fun position hboth => h position hboth.symm

instance : Std.Symm Disjoint := ⟨fun _ _ => Disjoint.symm⟩

theorem disjoint_of_le (h : first.stop ≤ second.start) : Disjoint first second := by
  rintro position ⟨⟨-, hfst⟩, hsec, -⟩
  omega

theorem Disjoint.stop_le (h : Disjoint first second) (hle : first.start ≤ second.start) :
    first.stop ≤ second.start := by
  by_contra hlt
  exact h second.start ⟨⟨hle, by omega⟩, Nat.le_refl _, second.nonempty⟩

theorem inTurn_iff (hsort : ordered.Pairwise fun first second => first.start ≤ second.start) :
    InTurn ordered ↔ ordered.Pairwise Disjoint := by
  constructor
  · intro h
    exact h.imp disjoint_of_le
  · intro h
    exact (h.and hsort).imp fun hboth => hboth.1.stop_le hboth.2

theorem overlapping_eq_false : overlapping ordered = false ↔ InTurn ordered := by
  induction ordered with
  | nil => simp [overlapping, InTurn]
  | cons first rest ih =>
    cases rest with
    | nil => simp [overlapping, InTurn]
    | cons second rest =>
      have hstep : overlapping (first :: second :: rest) =
          (decide (second.start < first.stop) || overlapping (second :: rest)) := rfl
      rw [hstep, Bool.or_eq_false_iff, ih, decide_eq_false_iff_not, Nat.not_lt]
      constructor
      · rintro ⟨hnext, hrest⟩
        refine List.pairwise_cons.mpr ⟨fun later hlat => ?_, hrest⟩
        rcases List.mem_cons.mp hlat with rfl | hlat
        · exact hnext
        · have hlast := (List.pairwise_cons.mp hrest).1 later hlat
          have hsec := second.nonempty
          omega
      · intro h
        obtain ⟨hfst, hrest⟩ := List.pairwise_cons.mp h
        exact ⟨hfst second (by simp), hrest⟩

theorem last_within_iff (h : InTurn ordered) {length : Nat} :
    (ordered.getLast?.any fun last => decide (length < last.stop)) = false ↔
      ∀ span ∈ ordered, span.stop ≤ length := by
  rcases List.eq_nil_or_concat' ordered with rfl | ⟨before, last, rfl⟩
  · simp
  · have hb := (List.pairwise_append.mp h).2.2
    simp only [List.getLast?_concat, Option.any_some, decide_eq_false_iff_not, Nat.not_lt]
    constructor
    · intro hlast span hspan
      rcases List.mem_append.mp hspan with hspan | hspan
      · have hle := hb span hspan last (by simp)
        have hne := last.nonempty
        omega
      · rwa [List.mem_singleton.mp hspan]
    · intro hall
      exact hall last (by simp)

def inOrder (spans : List RedactionSpan) : List RedactionSpan :=
  sortedBy RedactionSpan.start spans

theorem inOrder_perm (spans : List RedactionSpan) : (inOrder spans).Perm spans :=
  sortedBy_perm _ _

theorem inOrder_inTurn_iff : InTurn (inOrder spans) ↔ spans.Pairwise Disjoint := by
  rw [inOrder, inTurn_iff (sortedBy_pairwise RedactionSpan.start spans)]
  exact (sortedBy_perm _ _).pairwise_iff Disjoint.symm

theorem inOrder_eq {os : List RedactionSpan} (hperm : os.Perm spans)
    (h : spans.Pairwise Disjoint) : inOrder os = inOrder spans := by
  apply sortedBy_eq_of_perm hperm
  intro first hfst second hsec hstart
  by_contra hne
  have hdisj := h.forall (hperm.mem_iff.mp hfst) (hperm.mem_iff.mp hsec) hne
  have hfirst_nonempty := first.nonempty
  have hsecond_nonempty := second.nonempty
  exact hdisj first.start (by unfold RedactionSpan.Covers; omega)

/-! ## The splices -/

def unredacted (text : PyString) : Nat → List RedactionSpan → List PyString
  | position, [] => [text.drop position]
  | position, span :: rest =>
    (text.drop position).take (span.start - position) :: unredacted text span.stop rest

theorem intercalate_unredacted (placeholder seg : PyString) (position : Nat)
    (rest : List RedactionSpan) :
    placeholder.intercalate (seg :: unredacted text position rest) =
      seg ++ placeholder ++ placeholder.intercalate (unredacted text position rest) := by
  cases rest with
  | nil => rw [unredacted, List.intercalate_cons_cons]
  | cons span rest => rw [unredacted, List.intercalate_cons_cons]

theorem foldr_hide (h : InTurn ordered) (hwithin : ∀ span ∈ ordered, span.stop ≤ text.length)
    (hposn : ∀ span ∈ ordered, position ≤ span.start) :
    ordered.foldr hide text =
      text.take position ++ redactionPlaceholder.intercalate (unredacted text position ordered) := by
  induction ordered generalizing position with
  | nil => rw [unredacted, List.intercalate_singleton, List.foldr_nil, List.take_append_drop]
  | cons span rest ih =>
    obtain ⟨hnext, hrest⟩ := List.pairwise_cons.mp h
    have hstart : position ≤ span.start := hposn span (by simp)
    have hstop : span.stop ≤ text.length := hwithin span (by simp)
    have hlen : (text.take span.stop).length = span.stop := List.length_take_of_le hstop
    have hwithin_take : span.start ≤ (text.take span.stop).length := by
      rw [hlen]
      exact Nat.le_of_lt span.nonempty
    have hb : (text.take span.stop).take span.start = text.take span.start := by
      rw [List.take_take, Nat.min_eq_left (Nat.le_of_lt span.nonempty)]
    rw [List.foldr_cons, ih hrest (fun later hlat => hwithin later (by simp [hlat])) hnext,
      hide, unredacted, intercalate_unredacted,
      List.take_append_of_le_length hwithin_take, hb,
      List.drop_append_of_le_length (Nat.le_of_eq hlen.symm),
      List.drop_eq_nil_of_le (Nat.le_of_eq hlen), List.nil_append]
    calc text.take span.start ++ redactionPlaceholder ++ _
        = text.take (position + (span.start - position)) ++ redactionPlaceholder ++ _ := by
          rw [Nat.add_sub_cancel' hstart]
      _ = text.take position ++ ((text.drop position).take (span.start - position) ++
            redactionPlaceholder ++ _) := by
          rw [List.take_add]
          simp only [List.append_assoc]

theorem redact_eq (text : PyString) (spans : List RedactionSpan) :
    redact text spans =
      if overlapping (inOrder spans) then
        .error ⟨"spans overlap, so what would be sent is ambiguous"⟩
      else if (inOrder spans).getLast?.any fun last => decide (text.length < last.stop) then
        .error ⟨"a span runs past the end of the text"⟩
      else .ok ((inOrder spans).foldr hide text) := by
  rw [redact, List.foldl_reverse]
  rfl

theorem redact_ok (h : spans.Pairwise Disjoint)
    (hwithin : ∀ span ∈ spans, span.stop ≤ text.length) :
    redact text spans =
      .ok (redactionPlaceholder.intercalate (unredacted text 0 (inOrder spans))) := by
  have hturn := inOrder_inTurn_iff.mpr h
  have hall : ∀ span ∈ inOrder spans, span.stop ≤ text.length := fun span hspan =>
    hwithin span ((inOrder_perm spans).mem_iff.mp hspan)
  rw [redact_eq, overlapping_eq_false.mpr hturn, (last_within_iff hturn).mpr hall,
    foldr_hide hturn hall fun _ _ => Nat.zero_le _]
  rfl

theorem redact_overlapping (h : ¬spans.Pairwise Disjoint) :
    redact text spans = .error ⟨"spans overlap, so what would be sent is ambiguous"⟩ := by
  have hoverlap : overlapping (inOrder spans) = true := by
    rw [← Bool.not_eq_false, overlapping_eq_false, inOrder_inTurn_iff]
    exact h
  rw [redact_eq, hoverlap, if_pos rfl]

theorem redact_past_end (h : spans.Pairwise Disjoint)
    (hpast : ¬∀ span ∈ spans, span.stop ≤ text.length) :
    redact text spans = .error ⟨"a span runs past the end of the text"⟩ := by
  have hturn := inOrder_inTurn_iff.mpr h
  have hlast : ((inOrder spans).getLast?.any fun last => decide (text.length < last.stop)) =
      true := by
    rw [← Bool.not_eq_false, last_within_iff hturn]
    intro hall
    exact hpast fun span hspan => hall span ((inOrder_perm spans).mem_iff.mpr hspan)
  rw [redact_eq, overlapping_eq_false.mpr hturn, hlast]
  rfl

theorem redact_ok_iff :
    (∃ released, redact text spans = .ok released) ↔
      spans.Pairwise Disjoint ∧ ∀ span ∈ spans, span.stop ≤ text.length := by
  by_cases hdisj : spans.Pairwise Disjoint
  · by_cases hwithin : ∀ span ∈ spans, span.stop ≤ text.length
    · exact iff_of_true ⟨_, redact_ok hdisj hwithin⟩ ⟨hdisj, hwithin⟩
    · simp [redact_past_end hdisj hwithin, hwithin]
  · simp [redact_overlapping hdisj, hdisj]

theorem redact_perm {os : List RedactionSpan} (hperm : os.Perm spans) :
    redact text os = redact text spans := by
  by_cases hdisj : spans.Pairwise Disjoint
  · rw [redact_eq, redact_eq, inOrder_eq hperm hdisj]
  · rw [redact_overlapping hdisj, redact_overlapping]
    rwa [hperm.pairwise_iff Disjoint.symm]

def AgreeOutside (spans : List RedactionSpan) (text other : PyString) : Prop :=
  other.length = text.length ∧
    ∀ position, (∀ span ∈ spans, ¬span.Covers position) → other[position]? = text[position]?

theorem unredacted_congr (h : InTurn ordered) (hposn : ∀ span ∈ ordered, position ≤ span.start)
    (hsame : ∀ i, position ≤ i → (∀ span ∈ ordered, ¬span.Covers i) → other[i]? = text[i]?) :
    unredacted other position ordered = unredacted text position ordered := by
  induction ordered generalizing position with
  | nil =>
    have hdrop : other.drop position = text.drop position := by
      apply List.ext_getElem?
      intro i
      rw [List.getElem?_drop, List.getElem?_drop, hsame _ (Nat.le_add_right _ _) (by simp)]
    rw [unredacted, unredacted, hdrop]
  | cons span rest ih =>
    obtain ⟨hnext, hrest⟩ := List.pairwise_cons.mp h
    have hstart : position ≤ span.start := hposn span (by simp)
    have hseg : (other.drop position).take (span.start - position) =
        (text.drop position).take (span.start - position) := by
      apply List.ext_getElem?
      intro i
      rw [List.getElem?_take, List.getElem?_take, List.getElem?_drop, List.getElem?_drop]
      split_ifs with hlt
      · apply hsame _ (Nat.le_add_right _ _)
        rintro later hlat ⟨hle, -⟩
        rcases List.mem_cons.mp hlat with rfl | hlat
        · omega
        · have hbehind := hnext later hlat
          have hne := span.nonempty
          omega
      · rfl
    have hbehind : unredacted other span.stop rest = unredacted text span.stop rest := by
      apply ih hrest hnext
      intro i hle hout
      have hne := span.nonempty
      apply hsame i (by omega)
      intro later hlat hcov
      rcases List.mem_cons.mp hlat with rfl | hlat
      · exact Nat.not_lt.mpr hle hcov.2
      · exact hout later hlat hcov
    rw [unredacted, unredacted, hseg, hbehind]

theorem redact_agree (h : AgreeOutside spans text other) :
    redact other spans = redact text spans := by
  obtain ⟨hlen, hsame⟩ := h
  by_cases hdisj : spans.Pairwise Disjoint
  · by_cases hwithin : ∀ span ∈ spans, span.stop ≤ text.length
    · have hpieces : unredacted other 0 (inOrder spans) = unredacted text 0 (inOrder spans) := by
        apply unredacted_congr (inOrder_inTurn_iff.mpr hdisj) fun _ _ => Nat.zero_le _
        intro i _ hout
        exact hsame i fun span hspan => hout span ((inOrder_perm spans).mem_iff.mpr hspan)
      rw [redact_ok hdisj hwithin, redact_ok hdisj (by rwa [hlen]), hpieces]
    · rw [redact_past_end hdisj hwithin, redact_past_end hdisj (by rwa [hlen])]
  · rw [redact_overlapping hdisj, redact_overlapping hdisj]

/-- Redaction succeeds exactly for disjoint spans within the text, puts a placeholder for
each span between the pieces that no span covers, and depends neither on the order of the
spans nor on what is under them. -/
theorem redact_hides_spans (text : PyString) (spans : List RedactionSpan) :
    ((∃ released, redact text spans = .ok released) ↔
      spans.Pairwise Disjoint ∧ ∀ span ∈ spans, span.stop ≤ text.length) ∧
    (∀ released, redact text spans = .ok released →
      ∃ ordered : List RedactionSpan, ordered.Perm spans ∧ InTurn ordered ∧
        released = redactionPlaceholder.intercalate (unredacted text 0 ordered)) ∧
    (∀ others : List RedactionSpan, others.Perm spans →
      redact text others = redact text spans) ∧
    ∀ other : PyString, AgreeOutside spans text other →
      redact other spans = redact text spans := by
  refine ⟨redact_ok_iff, fun released h => ?_, fun _ => redact_perm, fun _ => redact_agree⟩
  obtain ⟨hdisjoint, hwithin⟩ := redact_ok_iff.mp ⟨released, h⟩
  rw [redact_ok hdisjoint hwithin] at h
  exact ⟨inOrder spans, inOrder_perm spans, inOrder_inTurn_iff.mpr hdisjoint,
    (Except.ok.inj h).symm⟩

/-! ## The release -/

section Release

variable {interview : Interview} {ownerId : Nat} {permission : Option RecordingPermission}
  {preview : RedactionPreview} {approval : ReleaseApproval} {now : Instant}
  {record : ReleaseRecord}

theorem recordingLock_unlocked_iff {scope : PermissionScope} :
    (recordingLock interview permission scope now).1 = .unlocked ↔
      interview.kind = .real ∧ ∃ granted, permission = some granted ∧
        granted.interviewId = interview.interviewId ∧ scope ∈ granted.scopes ∧
        ∀ revoked, granted.revokedAt = some revoked → now < revoked := by
  have hact (granted : RecordingPermission) : granted.activeAt now = true ↔
      ∀ revoked, granted.revokedAt = some revoked → now < revoked := by
    unfold RecordingPermission.activeAt
    cases granted.revokedAt <;> simp
  unfold recordingLock Interview.isReal
  by_cases hreal : interview.kind = .real
  · cases permission with
    | none => simp [hreal]
    | some granted =>
      simp only [hreal, ← hact]
      by_cases hinterview : granted.interviewId = interview.interviewId <;>
        cases hmoment : granted.activeAt now <;>
        by_cases hscope : scope ∈ granted.scopes <;> simp [hinterview, hmoment, hscope]
  · simp [hreal]

/-- What `release_to_claude` checks. -/
structure Admitted (interview : Interview) (ownerId : Nat)
    (permission : Option RecordingPermission) (preview : RedactionPreview)
    (approval : ReleaseApproval) (now : Instant) : Prop where
  of_interview : preview.interviewId = interview.interviewId
  of_owner : preview.ownerId = ownerId
  unlocked : (recordingLock interview permission .releaseToClaude now).1 = .unlocked
  matching : approval.previewSha256 = preview.previewSha256
  after_preview : preview.generatedAt ≤ approval.approvedAt

theorem releaseToClaude_ok_iff :
    releaseToClaude interview ownerId permission preview approval now = .ok record ↔
      Admitted interview ownerId permission preview approval now ∧
        record = ⟨interview.interviewId, ownerId, preview.sourceSha256, preview.previewSha256,
          approval.approvedBy, now⟩ := by
  rw [releaseToClaude, bind_ok_iff]
  constructor
  · rintro ⟨⟨⟩, hchk, hrec⟩
    rw [raiseFirst_eq_ok] at hchk
    simp only [List.forall_mem_cons, Bool.or_eq_false_iff, decide_eq_false_iff_not, not_not,
      Int.not_lt] at hchk
    obtain ⟨⟨hinterview, hown⟩, hst, hmatches, ha, -⟩ := hchk
    exact ⟨⟨hinterview, hown, hst, hmatches, ha⟩, (Except.ok.inj hrec).symm⟩
  · rintro ⟨⟨hinterview, hown, hst, hmatches, ha⟩, rfl⟩
    refine ⟨(), raiseFirst_eq_ok.mpr ?_, rfl⟩
    simp [hinterview, hown, hst, hmatches, ha]

structure Authorized (interview : Interview) (permission : Option RecordingPermission)
    (preview : RedactionPreview) (approval : ReleaseApproval) (now : Instant)
    (record : ReleaseRecord) : Prop where
  real : interview.kind = .real
  permitted : ∃ granted, permission = some granted ∧
    granted.interviewId = interview.interviewId ∧ .releaseToClaude ∈ granted.scopes ∧
    granted.attestedAt ≤ now ∧ ∀ revoked, granted.revokedAt = some revoked → now < revoked
  named : approval.previewSha256 = record.releasedSha256
  after_preview : preview.generatedAt ≤ approval.approvedAt
  approved : approval.approvedAt ≤ now
  moment : record.releasedAt = now

/-- A release was authorized at its moment exactly when neither the attestation nor the
approval that it was admitted with is from a later one. -/
theorem release_authorized_iff (interview : Interview) (ownerId : Nat)
    (permission : Option RecordingPermission) (preview : RedactionPreview)
    (approval : ReleaseApproval) (now : Instant) :
    (∀ record, releaseToClaude interview ownerId permission preview approval now = .ok record →
      Authorized interview permission preview approval now record) ↔
    (Admitted interview ownerId permission preview approval now →
      (∀ granted, permission = some granted → granted.attestedAt ≤ now) ∧
        approval.approvedAt ≤ now) := by
  constructor
  · intro h hadmitted
    obtain ⟨-, ⟨granted, hgranted, -, -, hattested, -⟩, -, -, happroved, -⟩ :=
      h _ (releaseToClaude_ok_iff.mpr ⟨hadmitted, rfl⟩)
    refine ⟨fun other hother => ?_, happroved⟩
    rw [hgranted] at hother
    exact Option.some.inj hother ▸ hattested
  · intro h record hrecord
    obtain ⟨hadmitted, rfl⟩ := releaseToClaude_ok_iff.mp hrecord
    obtain ⟨hattested, happroved⟩ := h hadmitted
    obtain ⟨hreal, granted, hgranted, hinterview, hscope, hrevoked⟩ :=
      recordingLock_unlocked_iff.mp hadmitted.unlocked
    exact {
      real := hreal
      permitted := ⟨granted, hgranted, hinterview, hscope, hattested granted hgranted, hrevoked⟩
      named := hadmitted.matching
      after_preview := hadmitted.after_preview
      approved := happroved
      moment := rfl }

end Release

/-- Attested on the day after the release. -/
def futurePermission : RecordingPermission where
  interviewId := 11
  attestedAt := 86400000000
  scopes := [.releaseToClaude]
  scopes_bounded := by decide
  scopes_nodup := by decide
  revoked_after := by simp

def sampleHash : String := "0123456789abcdef0123456789abcdef0123456789abcdef0123456789abcdef"

def samplePreview : RedactionPreview := ⟨11, 1, sampleHash, sampleHash, -2, by decide⟩

def sampleApproval : ReleaseApproval := ⟨sampleHash, "Ana", -1, by decide, by decide⟩

theorem released_before_attestation :
    ∃ record, releaseToClaude ⟨11, .real⟩ 1 (some futurePermission) samplePreview sampleApproval 0 =
        .ok record ∧
      ¬Authorized ⟨11, .real⟩ (some futurePermission) samplePreview sampleApproval 0 record := by
  refine ⟨_, releaseToClaude_ok_iff.mpr ⟨⟨rfl, rfl, rfl, rfl, by decide⟩, rfl⟩, fun h => ?_⟩
  obtain ⟨granted, hgranted, -, -, hattested, -⟩ := h.permitted
  rw [← Option.some.inj hgranted] at hattested
  exact absurd hattested (by decide)

end TamForge.Interviews
