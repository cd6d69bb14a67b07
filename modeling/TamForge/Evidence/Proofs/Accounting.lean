import Mathlib.Data.Prod.Lex
import TamForge.Evidence.Proofs.Bounds
import TamForge.ProofSupport.Keys
import TamForge.ProofSupport.Ranks

/-!
# What an estimate selects and accounts for

`estimate_skill` breaks ties by the text of the identity, the ledger by its
number.  Everything else about an estimate is accounted for exactly: the two
select and discount the same events unless a tie that they order differently
lies across an edge.
-/

namespace TamForge.Evidence

open Models ProofSupport ProofSupport.Decimals

variable {formula : FormulaConfig} {asOf : Instant} {events others : List SkillEvidence}
  {baseline monthOneTarget finalTarget : Rat} {event first second : SkillEvidence}
  {result : SkillEstimateResult}

/-! ## The two orders -/

/-- The key of `ORDER BY occurred_at, id`. -/
def ledgerKey (event : SkillEvidence) : Instant ×ₗ Nat :=
  toLex (event.occurredAt, event.eventId)

/-- `_event_key` as a value of one linear order. -/
def textKey (event : SkillEvidence) : Instant ×ₗ String :=
  toLex (event.occurredAt, toString event.eventId)

def following {κ : Type} [LinearOrder κ] (key : SkillEvidence → κ) (events : List SkillEvidence)
    (event : SkillEvidence) : Nat :=
  rank (fun other => OrderDual.toDual (key other)) events event

def latest {κ : Type} [LinearOrder κ] (key : SkillEvidence → κ) (count : Nat)
    (events : List SkillEvidence) : List SkillEvidence :=
  events.filter fun event => decide (following key events event < count)

def peers (events : List SkillEvidence) (event : SkillEvidence) : List SkillEvidence :=
  events.filter fun other => decide (group other = group event)

theorem mem_latest {κ : Type} [LinearOrder κ] {key : SkillEvidence → κ} {count : Nat} :
    event ∈ latest key count events ↔ event ∈ events ∧ following key events event < count := by
  rw [latest, List.mem_filter, decide_eq_true_eq]

theorem keyLe_iff : keyLe first.key second.key ↔ textKey first ≤ textKey second := by
  rw [textKey, textKey, Prod.Lex.toLex_le_toLex]
  rfl

theorem eventId_of_textKey (h : textKey first = textKey second) :
    first.eventId = second.eventId := by
  have htext : toString first.eventId = toString second.eventId :=
    congrArg (fun key => (ofLex key).2) h
  exact Keys.toString_inj (congrArg String.toList htext)

theorem eventId_of_ledgerKey (h : ledgerKey first = ledgerKey second) :
    first.eventId = second.eventId :=
  congrArg (fun key => (ofLex key).2) h

instance : Std.Total fun first second : SkillEvidence => keyLe first.key second.key :=
  ⟨fun first second => by
    rw [keyLe_iff, keyLe_iff]
    exact le_total _ _⟩

instance : IsTrans SkillEvidence fun first second => keyLe first.key second.key :=
  ⟨fun first second third => by
    rw [keyLe_iff, keyLe_iff, keyLe_iff]
    exact le_trans⟩

theorem sortedBy_pairwise (h : (events.map SkillEvidence.eventId).Nodup) :
    (sortedBy SkillEvidence.key events).Pairwise fun first second =>
      textKey first < textKey second := by
  have hord : (sortedBy SkillEvidence.key events).Pairwise fun first second =>
      keyLe first.key second.key := List.pairwise_insertionSort _ _
  have hdist : ((sortedBy SkillEvidence.key events).map SkillEvidence.eventId).Nodup :=
    ((sortedBy_perm SkillEvidence.key events).map _).nodup_iff.mpr h
  have hpairs := List.pairwise_map.mp hdist
  refine (hord.and hpairs).imp ?_
  rintro first second ⟨hle, hne⟩
  rw [keyLe_iff] at hle
  exact lt_of_le_of_ne hle fun heq => hne (eventId_of_textKey heq)

theorem sortedBy_eq_of_perm (h : (events.map SkillEvidence.eventId).Nodup)
    (hperm : events.Perm others) :
    sortedBy SkillEvidence.key events = sortedBy SkillEvidence.key others := by
  have ho : (others.map SkillEvidence.eventId).Nodup := (hperm.map _).nodup_iff.mp h
  have hsort := ((sortedBy_perm SkillEvidence.key events).trans hperm).trans
    (sortedBy_perm SkillEvidence.key others).symm
  apply hsort.eq_of_pairwise _ (sortedBy_pairwise h) (sortedBy_pairwise ho)
  intro first second _ _ hlt hgt
  exact absurd hlt hgt.not_gt

/-! ## The window -/

theorem qualifying_distinct (asOf : Instant) (h : (events.map SkillEvidence.eventId).Nodup) :
    ((qualifyingEvents events asOf).map SkillEvidence.eventId).Nodup :=
  h.sublist (List.filter_sublist.map _)

theorem rank_perm {κ : Type} [LinearOrder κ] (key : SkillEvidence → κ)
    (hperm : events.Perm others) (event : SkillEvidence) :
    rank key events event = rank key others event :=
  hperm.countP_eq _

theorem mem_window_iff (h : (events.map SkillEvidence.eventId).Nodup) :
    event ∈ window events formula asOf ↔
      event ∈ latest textKey formula.latestQualifyingEvents (qualifyingEvents events asOf) := by
  have hperm := sortedBy_perm SkillEvidence.key (qualifyingEvents events asOf)
  have hsort := sortedBy_pairwise (qualifying_distinct asOf h)
  rw [mem_latest, following, ← rank_perm _ hperm, ← hperm.mem_iff]
  constructor
  · intro hwin
    have hmem := (lastOf_sublist _ _).subset hwin
    exact ⟨hmem, (mem_drop_iff hmem hsort).mp hwin⟩
  · rintro ⟨hmem, hrank⟩
    exact (mem_drop_iff hmem hsort).mpr hrank

theorem length_window : (window events formula asOf).length =
    min formula.latestQualifyingEvents (qualifyingEvents events asOf).length := by
  have hlen := (sortedBy_perm SkillEvidence.key (qualifyingEvents events asOf)).length_eq
  rw [window, lastOf, List.length_drop, hlen]
  omega

theorem contributing_eq (baseline monthOneTarget finalTarget : Rat) (formula : FormulaConfig)
    (asOf : Instant) (events : List SkillEvidence) :
    (estimateOf baseline monthOneTarget finalTarget events formula asOf).contributingEventIds =
      (window events formula asOf).map SkillEvidence.eventId := by
  show ((adjustAll formula [] (window events formula asOf)).map Adjusted.event).map
    SkillEvidence.eventId = _
  rw [List.map_map]
  exact map_adjustAll [] SkillEvidence.eventId fun _ _ => rfl

theorem contributes_iff (h : (events.map SkillEvidence.eventId).Nodup) (hmem : event ∈ events) :
    event.eventId ∈ (estimateOf baseline monthOneTarget finalTarget events formula
        asOf).contributingEventIds ↔ event ∈ window events formula asOf := by
  rw [contributing_eq, List.mem_map]
  constructor
  · rintro ⟨other, ho, heq⟩
    rwa [← List.inj_on_of_nodup_map h (mem_window ho).1 hmem heq]
  · intro hwin
    exact ⟨event, hwin, rfl⟩

def contributing (events : List SkillEvidence) (result : SkillEstimateResult) :
    List SkillEvidence :=
  events.filter fun event => decide (event.eventId ∈ result.contributingEventIds)

theorem contributing_perm (baseline monthOneTarget finalTarget : Rat) (formula : FormulaConfig)
    (asOf : Instant) (h : (events.map SkillEvidence.eventId).Nodup) :
    (contributing events (estimateOf baseline monthOneTarget finalTarget events formula asOf)).Perm
      (window events formula asOf) := by
  have hevs : events.Nodup := List.Nodup.of_map _ h
  have hwin : (window events formula asOf).Nodup := List.Nodup.of_map _ (window_nodup h)
  apply (List.perm_ext_iff_of_nodup (hevs.filter _) hwin).mpr
  intro other
  rw [List.mem_filter, decide_eq_true_eq]
  constructor
  · rintro ⟨hmem, hid⟩
    exact (contributes_iff h hmem).mp hid
  · intro ho
    have hmem := (mem_window ho).1
    exact ⟨hmem, (contributes_iff h hmem).mpr ho⟩

theorem estimate_partition (h : (events.map SkillEvidence.eventId).Nodup) :
    ((estimateOf baseline monthOneTarget finalTarget events formula asOf).contributingEventIds ++
      (estimateOf baseline monthOneTarget finalTarget events formula asOf).excludedEventIds).Perm
        (events.map SkillEvidence.eventId) := by
  have hexcl : (estimateOf baseline monthOneTarget finalTarget events formula
      asOf).excludedEventIds.Perm ((events.filter fun event => !decide (event.eventId ∈
        (estimateOf baseline monthOneTarget finalTarget events formula
          asOf).contributingEventIds)).map SkillEvidence.eventId) := by
    refine ((sortedBy_perm SkillEvidence.key _).map SkillEvidence.eventId).trans ?_
    rw [contributing_eq]
    apply List.Perm.of_eq
    congr 1
    apply List.filter_congr
    intro other _
    rw [decide_not]
  have hincl := ((contributing_perm baseline monthOneTarget finalTarget formula asOf h).map
    SkillEvidence.eventId).symm
  rw [← contributing_eq baseline monthOneTarget finalTarget] at hincl
  refine (hincl.append hexcl).trans ?_
  rw [← List.map_append]
  exact (List.filter_append_perm _ _).map _

def discountedIds (formula : FormulaConfig) (seen : List (String × String × Int))
    (selected : List SkillEvidence) : List Nat :=
  (((adjustAll formula seen selected).map Adjusted.item).filter fun item =>
    item.inclusion = .discountedSameDay).map EvidenceWeightManifestItem.eventId

theorem discountedIds_subset (seen : List (String × String × Int))
    (selected : List SkillEvidence) :
    discountedIds formula seen selected ⊆ selected.map SkillEvidence.eventId := by
  intro eventId hevId
  obtain ⟨item, hitem, rfl⟩ := List.mem_map.mp hevId
  obtain ⟨adjusted, hadj, rfl⟩ := List.mem_map.mp (List.mem_filter.mp hitem).1
  obtain ⟨original, horig, hadjs⟩ := mem_adjustAll hadj
  rw [hadjs.item_id]
  exact List.mem_map_of_mem horig

theorem discountedIds_cons (seen : List (String × String × Int)) (event : SkillEvidence)
    (rest : List SkillEvidence) (eventId : Nat) :
    eventId ∈ discountedIds formula seen (event :: rest) ↔
      eventId = event.eventId ∧ formula.fullWeightSameDayLimit ≤ seen.count (group event) ∨
        eventId ∈ discountedIds formula (group event :: seen) rest := by
  unfold discountedIds
  rw [adjustAll, List.map_cons, List.filter_cons]
  by_cases hlimit : formula.fullWeightSameDayLimit < seen.count (group event) + 1
  · have hle : formula.fullWeightSameDayLimit ≤ seen.count (group event) := by omega
    simp [adjust, hlimit, hle]
  · have hle : ¬formula.fullWeightSameDayLimit ≤ seen.count (group event) := by omega
    simp [adjust, hlimit, hle]

theorem mem_discountedIds_iff {earl later : List SkillEvidence}
    (seen : List (String × String × Int))
    (hdist : ((earl ++ event :: later).map SkillEvidence.eventId).Nodup) :
    event.eventId ∈ discountedIds formula seen (earl ++ event :: later) ↔
      formula.fullWeightSameDayLimit ≤
        seen.count (group event) + (earl.map group).count (group event) := by
  induction earl generalizing seen with
  | nil =>
    rw [List.nil_append, List.map_cons, List.nodup_cons] at hdist
    have hlat : event.eventId ∉ discountedIds formula (group event :: seen) later :=
      fun hmem => hdist.1 (discountedIds_subset _ _ hmem)
    rw [List.nil_append, discountedIds_cons]
    simp [hlat]
  | cons other earl ih =>
    rw [List.cons_append, List.map_cons, List.nodup_cons] at hdist
    have hne : event.eventId ≠ other.eventId := by
      intro heq
      apply hdist.1
      rw [← heq]
      exact List.mem_map_of_mem (by simp)
    rw [List.cons_append, discountedIds_cons, ih _ hdist.2, List.map_cons, List.count_cons,
      List.count_cons]
    simp only [hne, false_and, false_or]
    omega

theorem discounted_iff_rank (h : (events.map SkillEvidence.eventId).Nodup)
    (hmem : event ∈ window events formula asOf) :
    event.eventId ∈ (estimateOf baseline monthOneTarget finalTarget events formula
        asOf).discountedEventIds ↔
      formula.fullWeightSameDayLimit ≤
        rank textKey (peers (window events formula asOf) event) event := by
  have hdist : ((window events formula asOf).map SkillEvidence.eventId).Nodup :=
    window_nodup h
  have hsort : (window events formula asOf).Pairwise fun first second =>
      textKey first < textKey second :=
    (sortedBy_pairwise (qualifying_distinct asOf h)).sublist (lastOf_sublist _ _)
  show event.eventId ∈ discountedIds formula [] (window events formula asOf) ↔ _
  obtain ⟨earl, later, hspl⟩ := List.append_of_mem hmem
  rw [hspl] at hdist hsort ⊢
  have hpeers : peers (earl ++ event :: later) event =
      peers earl event ++ event :: peers later event := by
    unfold peers
    rw [List.filter_append, List.filter_cons_of_pos (by simp)]
  have hplace := (rank_split (hpeers ▸ hsort.sublist (List.filter_sublist (p := fun other =>
    decide (group other = group event))) : (peers earl event ++ event ::
      peers later event).Pairwise fun first second => textKey first < textKey second)).1
  rw [mem_discountedIds_iff [] hdist, List.count_nil, Nat.zero_add, hpeers, hplace, peers,
    List.count, List.countP_map, List.countP_eq_length_filter]
  have hsame : (earl.filter ((fun other => other == group event) ∘ group)) =
      earl.filter fun other => decide (group other = group event) := by
    apply List.filter_congr
    intro other _
    exact Bool.beq_eq_decide_eq _ _
  rw [hsame]

/-! ## The accounts -/

structure AccountsFor (baseline monthOneTarget finalTarget : Rat) (events : List SkillEvidence)
    (formula : FormulaConfig) (asOf : Instant) (result : SkillEstimateResult) : Prop where
  selected : ∀ event ∈ events, event.eventId ∈ result.contributingEventIds ↔
    event ∈ latest ledgerKey formula.latestQualifyingEvents (qualifyingEvents events asOf)
  count : result.contributingEventIds.length =
    min formula.latestQualifyingEvents (qualifyingEvents events asOf).length
  partition : (result.contributingEventIds ++ result.excludedEventIds).Perm
    (events.map SkillEvidence.eventId)
  discounted : ∀ event ∈ events, event.eventId ∈ result.discountedEventIds ↔
    event.eventId ∈ result.contributingEventIds ∧ formula.fullWeightSameDayLimit ≤
      rank ledgerKey (peers (contributing events result) event) event
  total : result.totalEffectiveWeight =
    (result.weightManifest.map EvidenceWeightManifestItem.usedWeight).sum
  used_le : ∀ item ∈ result.weightManifest, item.usedWeight ≤ item.rawWeight
  unordered : ∀ others, events.Perm others →
    estimateSkill baseline monthOneTarget finalTarget others formula asOf = .ok result

/-- Two events that the ledger and the texts of their identities order
differently: they occurred at one instant. -/
def Disagree (first second : SkillEvidence) : Prop :=
  ledgerKey first < ledgerKey second ∧ textKey second < textKey first

def textWindow (formula : FormulaConfig) (asOf : Instant) (events : List SkillEvidence) :
    List SkillEvidence :=
  latest textKey formula.latestQualifyingEvents (qualifyingEvents events asOf)

/-- No such pair lies across the edge of the window, nor across the limit of
the full weights within it. -/
structure TiesAgree (formula : FormulaConfig) (asOf : Instant) (events : List SkillEvidence) :
    Prop where
  window : ∀ first ∈ qualifyingEvents events asOf, ∀ second ∈ qualifyingEvents events asOf,
    Disagree first second →
    ¬(following textKey (qualifyingEvents events asOf) first < formula.latestQualifyingEvents ∧
      formula.latestQualifyingEvents ≤ following textKey (qualifyingEvents events asOf) second)
  limit : ∀ first ∈ textWindow formula asOf events,
    ∀ second ∈ peers (textWindow formula asOf events) first, Disagree first second →
    ¬(rank textKey (peers (textWindow formula asOf events) first) second <
        formula.fullWeightSameDayLimit ∧
      formula.fullWeightSameDayLimit ≤
        rank textKey (peers (textWindow formula asOf events) first) first)

theorem distinct_keys (h : (events.map SkillEvidence.eventId).Nodup) :
    (∀ first ∈ events, ∀ second ∈ events, textKey first = textKey second → first = second) ∧
      ∀ first ∈ events, ∀ second ∈ events, ledgerKey first = ledgerKey second →
        first = second := by
  constructor
  · intro first hfst second hsec heq
    exact List.inj_on_of_nodup_map h hfst hsec (eventId_of_textKey heq)
  · intro first hfst second hsec heq
    exact List.inj_on_of_nodup_map h hfst hsec (eventId_of_ledgerKey heq)

theorem same_latest_iff (h : (events.map SkillEvidence.eventId).Nodup) (count : Nat) :
    (∀ event ∈ events, event ∈ latest textKey count events ↔ event ∈ latest ledgerKey count events)
      ↔ ∀ first ∈ events, ∀ second ∈ events, Disagree first second →
        ¬(following textKey events first < count ∧ count ≤ following textKey events second) := by
  have hkeys := distinct_keys h
  have hiff : (∀ event ∈ events,
      following textKey events event < count ↔ following ledgerKey events event < count) ↔
      ∀ first ∈ events, ∀ second ∈ events, ledgerKey second < ledgerKey first →
        textKey first < textKey second →
        ¬(following textKey events second < count ∧ count ≤ following textKey events first) :=
    same_below_iff (fun event => OrderDual.toDual (textKey event))
      (fun event => OrderDual.toDual (ledgerKey event)) (List.Nodup.of_map _ h) hkeys.1 count
      hkeys.2
  constructor
  · intro hsame first hfst second hsec hdisagree
    refine hiff.mp ?_ second hsec first hfst hdisagree.1 hdisagree.2
    intro event hev
    have hmem := hsame event hev
    rwa [mem_latest, mem_latest, and_iff_right hev, and_iff_right hev] at hmem
  · intro hclear event hev
    rw [mem_latest, mem_latest, and_iff_right hev, and_iff_right hev]
    exact hiff.mpr (fun first hfst second hsec ho hkey =>
      hclear second hsec first hfst ⟨ho, hkey⟩) event hev

theorem same_discounts_iff (h : (events.map SkillEvidence.eventId).Nodup) (limit : Nat) :
    (∀ event ∈ events, limit ≤ rank textKey events event ↔ limit ≤ rank ledgerKey events event) ↔
      ∀ first ∈ events, ∀ second ∈ events, Disagree first second →
        ¬(rank textKey events second < limit ∧ limit ≤ rank textKey events first) := by
  have hkeys := distinct_keys h
  have hiff := same_below_iff textKey ledgerKey (List.Nodup.of_map _ h) hkeys.1 limit hkeys.2
  constructor
  · intro hsame first hfst second hsec hdisagree
    refine hiff.mp ?_ first hfst second hsec hdisagree.1 hdisagree.2
    intro event hev
    have hle := hsame event hev
    omega
  · intro hclear event hev
    have hlt := hiff.mpr (fun first hfst second hsec ho hkey =>
      hclear first hfst second hsec ⟨ho, hkey⟩) event hev
    omega

theorem mem_peers {other : SkillEvidence} :
    other ∈ peers events event ↔ other ∈ events ∧ group other = group event := by
  rw [peers, List.mem_filter, decide_eq_true_eq]

theorem peers_eq {other : SkillEvidence} (h : other ∈ peers events event) :
    peers events other = peers events event := by
  unfold peers
  rw [(mem_peers.mp h).2]

theorem adjust_used_le (seen : List (String × String × Int))
    (hwt : 0 ≤ event.effectiveWeight) :
    (adjust formula seen event).item.usedWeight ≤ (adjust formula seen event).item.rawWeight := by
  have hraw : 0 ≤ quantize 6 event.effectiveWeight := quantize_nonneg hwt
  show (if decide (formula.fullWeightSameDayLimit < seen.count (group event) + 1) = true
      then quantize 6 (quantize 6 event.effectiveWeight * formula.sameDayRepetitionFactor)
      else quantize 6 event.effectiveWeight) ≤ quantize 6 event.effectiveWeight
  split
  · apply (hasPlaces_quantize 6 _).quantize_le
    exact mul_le_of_le_one_right hraw formula.repetition_lt.le
  · exact le_refl _

theorem adjustAll_used_le (seen : List (String × String × Int))
    (hwt : ∀ event ∈ events, 0 ≤ event.effectiveWeight) :
    ∀ adjusted ∈ adjustAll formula seen events,
      adjusted.item.usedWeight ≤ adjusted.item.rawWeight := by
  induction events generalizing seen with
  | nil =>
    intro adjusted hadj
    cases hadj
  | cons event rest ih =>
    rw [adjustAll, List.forall_mem_cons]
    rw [List.forall_mem_cons] at hwt
    exact ⟨adjust_used_le seen hwt.1, ih _ hwt.2⟩

theorem estimateSkill_eq_ok
    (h : estimateSkill baseline monthOneTarget finalTarget events formula asOf = .ok result) :
    (events.map SkillEvidence.eventId).Nodup ∧
      result = estimateOf baseline monthOneTarget finalTarget events formula asOf ∧
      ∀ others, events.Perm others →
        raiseFirst (estimateChecks baseline monthOneTarget finalTarget others formula) =
          .ok () := by
  unfold estimateSkill at h
  rw [bind_ok_iff] at h
  obtain ⟨_, hchk, hres⟩ := h
  rw [raiseFirst_eq_ok] at hchk
  simp only [estimateChecks, List.forall_mem_cons] at hchk
  obtain ⟨hbase, hmonthOne, hfinal, hdist, hweights, -⟩ := hchk
  refine ⟨by simpa using hdist, (Except.ok.inj hres).symm, ?_⟩
  intro others hperm
  rw [raiseFirst_eq_ok]
  simp only [estimateChecks, List.forall_mem_cons]
  refine ⟨hbase, hmonthOne, hfinal, ?_, ?_, by simp⟩
  · simpa [← (hperm.map SkillEvidence.eventId).nodup_iff] using hdist
  · rw [← hperm.any_eq]
    exact hweights

theorem estimateSkill_perm
    (h : estimateSkill baseline monthOneTarget finalTarget events formula asOf = .ok result)
    (hperm : events.Perm others) :
    estimateSkill baseline monthOneTarget finalTarget others formula asOf = .ok result := by
  obtain ⟨hdist, rfl, hchk⟩ := estimateSkill_eq_ok h
  have hwin : window events formula asOf = window others formula asOf := by
    unfold window
    rw [sortedBy_eq_of_perm (qualifying_distinct asOf hdist) (hperm.filter _)]
    rfl
  have hexcl : ∀ ids : List Nat,
      sortedBy SkillEvidence.key (events.filter fun event => event.eventId ∉ ids) =
        sortedBy SkillEvidence.key (others.filter fun event => event.eventId ∉ ids) := by
    intro ids
    exact sortedBy_eq_of_perm (hdist.sublist (List.filter_sublist.map _)) (hperm.filter _)
  unfold estimateSkill
  rw [hchk others hperm]
  show Except.ok (estimateOf baseline monthOneTarget finalTarget others formula asOf) = _
  unfold estimateOf
  dsimp only
  rw [hwin, hexcl]

/-! ## The order of the ledger -/

theorem textWindow_perm (formula : FormulaConfig) (asOf : Instant)
    (h : (events.map SkillEvidence.eventId).Nodup) :
    (window events formula asOf).Perm (textWindow formula asOf events) := by
  have hqual := List.Nodup.of_map _ (qualifying_distinct asOf h)
  apply (List.perm_ext_iff_of_nodup (List.Nodup.of_map _ (window_nodup h))
    (hqual.filter _)).mpr
  intro event
  exact mem_window_iff h

theorem discounted_subset : (estimateOf baseline monthOneTarget finalTarget events formula
      asOf).discountedEventIds ⊆ (estimateOf baseline monthOneTarget finalTarget events formula
        asOf).contributingEventIds := by
  rw [contributing_eq]
  exact discountedIds_subset [] _

/-- The discounts follow the ledger exactly when both orders give every event
of the window a rank on the same side of the limit. -/
theorem discounts_follow_iff (h : (events.map SkillEvidence.eventId).Nodup) :
    (∀ event ∈ events, event.eventId ∈ (estimateOf baseline monthOneTarget finalTarget events
        formula asOf).discountedEventIds ↔
      event.eventId ∈ (estimateOf baseline monthOneTarget finalTarget events formula
        asOf).contributingEventIds ∧ formula.fullWeightSameDayLimit ≤
          rank ledgerKey (peers (contributing events (estimateOf baseline monthOneTarget
            finalTarget events formula asOf)) event) event) ↔
      ∀ event ∈ textWindow formula asOf events,
        (formula.fullWeightSameDayLimit ≤
            rank textKey (peers (textWindow formula asOf events) event) event ↔
          formula.fullWeightSameDayLimit ≤
            rank ledgerKey (peers (textWindow formula asOf events) event) event) := by
  have hperm := textWindow_perm formula asOf h
  have hcontributing := (contributing_perm baseline monthOneTarget finalTarget formula asOf
    h).trans hperm
  have htext : ∀ event, rank textKey (peers (window events formula asOf) event) event =
      rank textKey (peers (textWindow formula asOf events) event) event :=
    fun event => rank_perm textKey (hperm.filter _) event
  have hldg : ∀ event, rank ledgerKey (peers (contributing events (estimateOf baseline
      monthOneTarget finalTarget events formula asOf)) event) event =
        rank ledgerKey (peers (textWindow formula asOf events) event) event :=
    fun event => rank_perm ledgerKey (hcontributing.filter _) event
  constructor
  · intro hall event hev
    have hwin := hperm.mem_iff.mpr hev
    have hmem := (mem_window hwin).1
    have hdisc := hall event hmem
    rw [discounted_iff_rank h hwin, contributes_iff h hmem, and_iff_right hwin, htext,
      hldg] at hdisc
    exact hdisc
  · intro hall event hmem
    rw [hldg, contributes_iff h hmem]
    by_cases hwin : event ∈ window events formula asOf
    · rw [discounted_iff_rank h hwin, and_iff_right hwin, htext]
      exact hall event (hperm.mem_iff.mp hwin)
    · constructor
      · intro hdisc
        exact absurd ((contributes_iff h hmem).mp (discounted_subset hdisc)) hwin
      · rintro ⟨hinside, -⟩
        exact absurd hinside hwin

/-- The two orders discount the same events of a window exactly when no pair of
peers lies across the limit. -/
theorem limit_iff (h : (events.map SkillEvidence.eventId).Nodup) (limit : Nat) :
    (∀ event ∈ events, (limit ≤ rank textKey (peers events event) event ↔
        limit ≤ rank ledgerKey (peers events event) event)) ↔
      ∀ first ∈ events, ∀ second ∈ peers events first, Disagree first second →
        ¬(rank textKey (peers events first) second < limit ∧
          limit ≤ rank textKey (peers events first) first) := by
  have hpeers : ∀ event, ((peers events event).map SkillEvidence.eventId).Nodup :=
    fun event => h.sublist (List.filter_sublist.map _)
  have hself : ∀ event ∈ events, event ∈ peers events event :=
    fun event hev => mem_peers.mpr ⟨hev, rfl⟩
  constructor
  · intro hall first hfst second hsec hdisagree
    refine (same_discounts_iff (hpeers first) limit).mp ?_ first (hself first hfst) second
      hsec hdisagree
    intro event hev
    rw [← peers_eq hev]
    exact hall event (mem_peers.mp hev).1
  · intro hclear event hev
    refine (same_discounts_iff (hpeers event) limit).mpr ?_ event (hself event hev)
    intro first hfst second hsec hdisagree
    rw [← peers_eq hfst] at hsec ⊢
    exact hclear first (mem_peers.mp hfst).1 second hsec hdisagree

/-- The selection follows the ledger exactly when no pair lies across the edge
of the window. -/
theorem selection_follows_iff (h : (events.map SkillEvidence.eventId).Nodup) :
    (∀ event ∈ events, event.eventId ∈ (estimateOf baseline monthOneTarget finalTarget events
        formula asOf).contributingEventIds ↔
      event ∈ latest ledgerKey formula.latestQualifyingEvents (qualifyingEvents events asOf)) ↔
      ∀ first ∈ qualifyingEvents events asOf, ∀ second ∈ qualifyingEvents events asOf,
        Disagree first second →
        ¬(following textKey (qualifyingEvents events asOf) first <
            formula.latestQualifyingEvents ∧
          formula.latestQualifyingEvents ≤
            following textKey (qualifyingEvents events asOf) second) := by
  rw [← same_latest_iff (qualifying_distinct asOf h)]
  constructor
  · intro hall event hev
    have hmem := (List.mem_filter.mp hev).1
    rw [← hall event hmem, contributes_iff h hmem]
    exact (mem_window_iff h).symm
  · intro hall event hmem
    rw [contributes_iff h hmem, mem_window_iff h]
    by_cases hquals : event ∈ qualifyingEvents events asOf
    · exact hall event hquals
    · rw [mem_latest, mem_latest]
      simp only [hquals, false_and]

def narrowFormula : FormulaConfig :=
  { shippedFormula with
    latestQualifyingEvents := 1
    latest_pos := Nat.one_pos
    latest_le := by decide }

def tiedEvents : List SkillEvidence :=
  [{ sampleEvidence with eventId := 9 }, { sampleEvidence with eventId := 10 }]

end TamForge.Evidence
