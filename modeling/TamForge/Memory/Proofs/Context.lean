import TamForge.Memory.Context
import TamForge.ProofSupport.Packing

/-!
# A packet and what it leaves out

The loop over the survivors packs them in order, once the corrections after the
second are left out.  A packet trims from the bottom exactly when behind a
source that does not fit the budget no later one fits in its place.
-/

namespace TamForge.Memory

open Models ProofSupport

/-! ## The loop -/

section Loop

/-- The sources that are offered to the budget, when so many corrections were
taken before. -/
def underCap : Nat → List ContextSource → List ContextSource
  | _, [] => []
  | taken, source :: rest =>
    if source.tier = .activeCorrections then
      if maxActiveCorrections ≤ taken then underCap taken rest
      else source :: underCap (taken + 1) rest
    else source :: underCap taken rest

def includedAt (entry : ContextSource × Nat) : Included :=
  ⟨entry.1.sourceId, entry.1.tier, entry.2, entry.1.tokens, entry.1.revisionId⟩

/-- What a packet says of a survivor that it leaves out. -/
def overBudget (source : ContextSource) : Excluded :=
  ⟨source.sourceId, source.tier, .overBudget⟩

variable {budget taken : Nat} {source : ContextSource} {rest list kept : List ContextSource}
  {state final : Trimming}

theorem underCap_sublist (taken : Nat) (list : List ContextSource) :
    (underCap taken list).Sublist list := by
  induction list generalizing taken with
  | nil => exact List.Sublist.refl _
  | cons source rest ih =>
    unfold underCap
    split
    · split
      · exact (ih taken).cons source
      · exact (ih (taken + 1)).cons_cons source
    · exact (ih taken).cons_cons source

theorem count_underCap_le (list : List ContextSource) (h : taken ≤ maxActiveCorrections) :
    taken + (underCap taken list).countP (fun source => source.tier = .activeCorrections) ≤
      maxActiveCorrections := by
  induction list generalizing taken with
  | nil => simpa [underCap] using h
  | cons source rest ih =>
    unfold underCap
    by_cases htier : source.tier = .activeCorrections
    · rw [if_pos htier]
      by_cases hfull : maxActiveCorrections ≤ taken
      · rw [if_pos hfull]
        exact ih h
      · have hrest := @ih (taken + 1) (by omega)
        rw [if_neg hfull, List.countP_cons_of_pos (by simpa using htier)]
        omega
    · rw [if_neg htier, List.countP_cons_of_neg (by simpa using htier)]
      exact ih h

/-- The loop from `state` over `list` takes `kept`. -/
structure Packs (budget : Nat) (state : Trimming) (list kept : List ContextSource)
    (final : Trimming) : Prop where
  used : final.used = state.used + (kept.map ContextSource.tokens).sum
  included : final.included =
    state.included ++ (kept.zipIdx state.included.length).map includedAt
  excluded : ∃ dropped, final.excluded = state.excluded ++ dropped.map overBudget ∧
    (kept ++ dropped).Perm list

theorem Packs.leaveOut (h : Packs budget (state.leaveOut source) rest kept final) :
    Packs budget state (source :: rest) kept final := by
  obtain ⟨dropped, hexcl, hperm⟩ := h.excluded
  refine ⟨h.used, h.included, source :: dropped, ?_, ?_⟩
  · rw [hexcl]
    simp [Trimming.leaveOut, overBudget]
  · exact List.perm_middle.trans (hperm.cons source)

theorem Packs.take (hroom : state.used ≤ budget)
    (hrest : ∀ state : Trimming, state.used ≤ budget → state.correctionsTaken = taken →
      Packs budget state rest (pack ContextSource.tokens (budget - state.used) list)
        (rest.foldl (Trimming.decide budget) state))
    (htaken : state.correctionsTaken = taken) :
    Packs budget state (source :: rest)
      (pack ContextSource.tokens (budget - state.used) (source :: list))
      (rest.foldl (Trimming.decide budget) (state.take budget source)) := by
  unfold Trimming.take
  by_cases hover : budget < state.used + source.tokens
  · rw [if_pos hover, pack_over (by omega)]
    exact (hrest (state.leaveOut source) hroom htaken).leaveOut
  · rw [if_neg hover, pack_fits (by omega)]
    have hnext := hrest { state with
      used := state.used + source.tokens,
      included := state.included ++ [⟨source.sourceId, source.tier, state.included.length,
        source.tokens, source.revisionId⟩] } (by simp only; omega) htaken
    have hleft : budget - (state.used + source.tokens) = budget - state.used - source.tokens := by
      omega
    simp only [hleft] at hnext
    obtain ⟨dropped, hexcl, hperm⟩ := hnext.excluded
    refine ⟨?_, ?_, dropped, hexcl, hperm.cons source⟩
    · rw [hnext.used]
      simp only [List.map_cons, List.sum_cons]
      omega
    · rw [hnext.included]
      simp [includedAt, List.zipIdx_cons]

theorem foldl_decide (list : List ContextSource) (state : Trimming)
    (hroom : state.used ≤ budget) :
    Packs budget state list
      (pack ContextSource.tokens (budget - state.used) (underCap state.correctionsTaken list))
      (list.foldl (Trimming.decide budget) state) := by
  induction list generalizing state with
  | nil => exact ⟨by simp [underCap, pack], by simp [underCap, pack], [], by simp,
      List.Perm.refl _⟩
  | cons source rest ih =>
    have offered : ∀ taken, ∀ next : Trimming, next.used ≤ budget →
        next.correctionsTaken = taken → Packs budget next rest
          (pack ContextSource.tokens (budget - next.used) (underCap taken rest))
          (rest.foldl (Trimming.decide budget) next) := by
      intro taken next hnext htaken
      rw [← htaken]
      exact ih next hnext
    rw [List.foldl_cons]
    unfold Trimming.decide underCap
    by_cases htier : source.tier = .activeCorrections
    · rw [if_pos htier, if_pos htier]
      by_cases hfull : maxActiveCorrections ≤ state.correctionsTaken
      · rw [if_pos hfull, if_pos hfull]
        exact (ih (state.leaveOut source) hroom).leaveOut
      · rw [if_neg hfull, if_neg hfull]
        have hpack := @Packs.take _ _ source _ _
          { state with correctionsTaken := state.correctionsTaken + 1 } hroom
          (offered (state.correctionsTaken + 1)) rfl
        exact ⟨hpack.used, hpack.included, hpack.excluded⟩
    · rw [if_neg htier, if_neg htier]
      exact Packs.take hroom (offered state.correctionsTaken) rfl

end Loop

/-! ## The survivors in order -/

section Order

variable {sources list before after : List ContextSource} {request : ContextRequest}
  {ledger : MemoryLedger} {source other : ContextSource} {taken : Nat}

def Precedes (source other : ContextSource) : Prop :=
  hierarchyKey source < hierarchyKey other

instance : DecidableRel Precedes := fun source other =>
  inferInstanceAs (Decidable (hierarchyKey source < hierarchyKey other))

theorem Precedes.ne (h : Precedes source other) : source ≠ other := by
  rintro rfl
  exact lt_irrefl _ h

theorem Precedes.asymm (h : Precedes source other) : ¬ Precedes other source :=
  lt_asymm h

theorem mem_survivors : source ∈ survivors sources request ledger ↔
    source ∈ sources ∧ exclusion source request (currentRevisions request ledger) = none := by
  rw [survivors, List.mem_insertionSort, List.mem_filter, decide_eq_true_eq]

theorem survivors_pairwise (hnd : (sources.map ContextSource.sourceId).Nodup) :
    (survivors sources request ledger).Pairwise Precedes := by
  have hsort := List.pairwise_insertionSort
    (fun source other : ContextSource => hierarchyKey source ≤ hierarchyKey other)
    (sources.filter fun source =>
      exclusion source request (currentRevisions request ledger) = none)
  have hdist : ((survivors sources request ledger).map ContextSource.sourceId).Nodup := by
    have hperm := List.perm_insertionSort
      (fun source other : ContextSource => hierarchyKey source ≤ hierarchyKey other)
      (sources.filter fun source =>
        exclusion source request (currentRevisions request ledger) = none)
    exact (hperm.map _).nodup_iff.mpr (hnd.sublist (List.filter_sublist.map _))
  have hne := List.pairwise_map.mp hdist
  refine (hsort.and hne).imp ?_
  intro source other h
  apply lt_of_le_of_ne h.1
  intro hkey
  exact h.2 (congrArg (fun key : Nat ×ₗ String => (ofLex key).2) hkey)

/-- An active correction with so many active corrections before it that none
may follow. -/
def Capped (list : List ContextSource) (source : ContextSource) : Prop :=
  source.tier = .activeCorrections ∧
    maxActiveCorrections ≤ list.countP fun other =>
      decide (other.tier = .activeCorrections ∧ Precedes other source)

theorem count_preceding_first (h : (source :: list).Pairwise Precedes) :
    (source :: list).countP (fun other =>
      decide (other.tier = .activeCorrections ∧ Precedes other source)) = 0 := by
  rw [List.countP_eq_zero]
  intro other ho hcnt
  simp only [decide_eq_true_eq] at hcnt
  rcases List.mem_cons.mp ho with rfl | hrest
  · exact hcnt.2.ne rfl
  · exact hcnt.2.asymm (List.rel_of_pairwise_cons h hrest)

theorem mem_underCap (h : list.Pairwise Precedes) (hsrc : source ∈ list) :
    source ∈ underCap taken list ↔ ¬ (source.tier = .activeCorrections ∧
      maxActiveCorrections ≤ taken + list.countP fun other =>
        decide (other.tier = .activeCorrections ∧ Precedes other source)) := by
  induction list generalizing taken with
  | nil => cases hsrc
  | cons first rest ih =>
    have hfst : first ∉ rest := fun hmem => (List.rel_of_pairwise_cons h hmem).ne rfl
    have hout : ∀ taken, first ∉ underCap taken rest := fun taken hmem =>
      hfst ((underCap_sublist taken rest).subset hmem)
    unfold underCap
    rcases List.mem_cons.mp hsrc with rfl | hrest
    · rw [count_preceding_first h, Nat.add_zero]
      split
      · rename_i htier
        split
        · rename_i hfull
          simp [hout, htier, hfull]
        · rename_i hfree
          simp [htier, hfree]
      · rename_i htier
        simp [htier]
    · have hb : Precedes first source := List.rel_of_pairwise_cons h hrest
      have hne := hb.ne.symm
      have hnext := fun taken => @ih taken (List.Pairwise.of_cons h) hrest
      split
      · rename_i htier
        rw [List.countP_cons_of_pos (by simp [htier, hb])]
        split
        · rename_i hfull
          rw [hnext]
          apply not_congr (and_congr_right fun _ => ?_)
          omega
        · simp only [List.mem_cons, hne, false_or, hnext, Nat.add_assoc, Nat.add_comm 1]
      · rename_i htier
        rw [List.countP_cons_of_neg (by simp [htier])]
        simp only [List.mem_cons, hne, false_or, hnext]

theorem mem_after_iff (h : (before ++ source :: after).Pairwise Precedes) :
    other ∈ after ↔ other ∈ before ++ source :: after ∧ Precedes source other := by
  obtain ⟨-, htail, hcross⟩ := List.pairwise_append.mp h
  constructor
  · intro hmem
    exact ⟨by simp [hmem], List.rel_of_pairwise_cons htail hmem⟩
  · rintro ⟨hmem, hlat⟩
    rcases List.mem_append.mp hmem with hb | hrest
    · exact absurd hlat (hcross other hb source (by simp)).asymm
    · rcases List.mem_cons.mp hrest with rfl | ha
      · exact absurd rfl hlat.ne
      · exact ha

end Order

/-! ## The packet -/

section Packet

variable {sources kept : List ContextSource} {request : ContextRequest} {ledger : MemoryLedger}
  {source : ContextSource} {packet : ContextPacket}

/-- The survivors that the number of corrections does not leave out. -/
def eligible (sources : List ContextSource) (request : ContextRequest) (ledger : MemoryLedger) :
    List ContextSource :=
  underCap 0 (survivors sources request ledger)

/-- Behind a survivor that is over the budget because of its tokens nothing is
included. -/
def TrimsFromBottom (sources : List ContextSource) (request : ContextRequest)
    (ledger : MemoryLedger) (packet : ContextPacket) : Prop :=
  ∀ source ∈ sources, exclusion source request (currentRevisions request ledger) = none →
    overBudget source ∈ packet.excluded → ¬ Capped (survivors sources request ledger) source →
    ∀ later ∈ sources, Precedes source later →
      ∀ entry ∈ packet.included, entry.sourceId ≠ later.sourceId

/-- A packet in which every source is decided once, in the order of the hierarchy
and within the budget. -/
structure Decides (sources : List ContextSource) (request : ContextRequest)
    (packet : ContextPacket) : Prop where
  partition : (packet.included.map (fun entry => (entry.sourceId, entry.tier)) ++
    packet.excluded.map fun entry => (entry.sourceId, entry.tier)).Perm
      (sources.map fun source => (source.sourceId, source.tier))
  taken : ∀ entry ∈ packet.included, ∃ source ∈ sources,
    entry = includedAt (source, entry.position)
  ordered : packet.included.Pairwise fun entry other =>
    toLex (hierarchy.idxOf entry.tier, entry.sourceId) <
      toLex (hierarchy.idxOf other.tier, other.sourceId)
  positions : packet.included.map Included.position = List.range packet.included.length
  used : packet.tokensUsed = (packet.included.map Included.tokens).sum
  within : packet.tokensUsed ≤ request.tokenBudget
  corrections : packet.included.countP (fun entry => entry.tier = .activeCorrections) ≤ 2

structure Builds (sources : List ContextSource) (request : ContextRequest)
    (ledger : MemoryLedger) (kept : List ContextSource) (packet : ContextPacket) : Prop where
  kept_eq : kept =
    pack ContextSource.tokens request.tokenBudget (eligible sources request ledger)
  used : packet.tokensUsed = (kept.map ContextSource.tokens).sum
  included : packet.included = kept.zipIdx.map includedAt
  excluded : ∃ dropped, packet.excluded =
      ruledOut sources request ledger ++ dropped.map overBudget ∧
    (kept ++ dropped).Perm (survivors sources request ledger)

theorem buildContext_builds (sources : List ContextSource) (request : ContextRequest)
    (ledger : MemoryLedger) :
    Builds sources request ledger
      (pack ContextSource.tokens request.tokenBudget (eligible sources request ledger))
      (buildContext sources request ledger) := by
  have hpacks := @foldl_decide request.tokenBudget (survivors sources request ledger)
    { correctionsTaken := 0, included := [], excluded := ruledOut sources request ledger,
      used := 0 } (Nat.zero_le _)
  refine ⟨rfl, ?_, ?_, hpacks.excluded⟩
  · have hused := hpacks.used
    rw [Nat.zero_add] at hused
    exact hused
  · have hincl := hpacks.included
    rw [List.nil_append] at hincl
    exact hincl

namespace Builds

theorem kept_sublist (h : Builds sources request ledger kept packet) :
    kept.Sublist (eligible sources request ledger) := by
  rw [h.kept_eq]
  exact pack_sublist ..

theorem kept_survive (h : Builds sources request ledger kept packet) :
    kept.Sublist (survivors sources request ledger) :=
  h.kept_sublist.trans (underCap_sublist 0 _)

theorem kept_mem (h : Builds sources request ledger kept packet) (hkept : source ∈ kept) :
    source ∈ sources :=
  (mem_survivors.mp (h.kept_survive.subset hkept)).1

theorem map_included {β : Type} (h : Builds sources request ledger kept packet)
    (f : Included → β) (g : ContextSource → β)
    (hfg : ∀ entry : ContextSource × Nat, f (includedAt entry) = g entry.1) :
    packet.included.map f = kept.map g := by
  rw [h.included, List.map_map]
  have hmap : kept.zipIdx.map (f ∘ includedAt) = (kept.zipIdx.map Prod.fst).map g := by
    rw [List.map_map]
    exact List.map_congr_left fun entry _ => hfg entry
  rw [hmap, List.zipIdx_map_fst]

theorem exists_included_iff (h : Builds sources request ledger kept packet)
    (hnd : (sources.map ContextSource.sourceId).Nodup) (hsrc : source ∈ sources) :
    (∃ entry ∈ packet.included, entry.sourceId = source.sourceId) ↔ source ∈ kept := by
  have hids : packet.included.map Included.sourceId = kept.map ContextSource.sourceId :=
    h.map_included _ _ fun _ => rfl
  constructor
  · rintro ⟨entry, hent, hid⟩
    have hmem : source.sourceId ∈ kept.map ContextSource.sourceId := by
      rw [← hids, ← hid]
      exact List.mem_map_of_mem hent
    obtain ⟨other, ho, hsame⟩ := List.mem_map.mp hmem
    rwa [← List.inj_on_of_nodup_map hnd (h.kept_mem ho) hsrc hsame]
  · intro hkept
    have hmem : source.sourceId ∈ packet.included.map Included.sourceId := by
      rw [hids]
      exact List.mem_map_of_mem hkept
    obtain ⟨entry, hent, hid⟩ := List.mem_map.mp hmem
    exact ⟨entry, hent, hid⟩

theorem overBudget_mem_iff (h : Builds sources request ledger kept packet)
    (hnd : (sources.map ContextSource.sourceId).Nodup)
    (hsrc : source ∈ survivors sources request ledger) :
    overBudget source ∈ packet.excluded ↔ source ∉ kept := by
  obtain ⟨dropped, hexcl, hperm⟩ := h.excluded
  have hdist : (kept ++ dropped).Nodup :=
    hperm.nodup_iff.mpr ((survivors_pairwise hnd).imp fun h => h.ne)
  have hruled : overBudget source ∉ ruledOut sources request ledger := by
    intro hmem
    obtain ⟨other, ho, hent⟩ := List.mem_filterMap.mp hmem
    obtain ⟨reason, hwhy, heq⟩ := Option.map_eq_some_iff.mp hent
    have hid := congrArg Excluded.sourceId heq
    obtain ⟨hin, hnone⟩ := mem_survivors.mp hsrc
    obtain rfl := List.inj_on_of_nodup_map hnd ho hin hid
    rw [hnone] at hwhy
    cases hwhy
  have hdrop : overBudget source ∈ dropped.map overBudget ↔ source ∈ dropped := by
    constructor
    · intro hmem
      obtain ⟨other, ho, heq⟩ := List.mem_map.mp hmem
      have hid := congrArg Excluded.sourceId heq
      have hin := mem_survivors.mp (hperm.subset (List.mem_append_right _ ho))
      rwa [← List.inj_on_of_nodup_map hnd hin.1 (mem_survivors.mp hsrc).1 hid]
    · exact fun hmem => List.mem_map_of_mem hmem
  rw [hexcl, List.mem_append, hdrop]
  constructor
  · rintro (hmem | hmem) hkept
    · exact hruled hmem
    · exact (List.disjoint_of_nodup_append hdist) hkept hmem
  · intro hout
    right
    rcases List.mem_append.mp (hperm.mem_iff.mpr hsrc) with hkept | hmem
    · exact absurd hkept hout
    · exact hmem

theorem map_ruledOut (sources : List ContextSource) (request : ContextRequest)
    (ledger : MemoryLedger) :
    (ruledOut sources request ledger).map (fun entry => (entry.sourceId, entry.tier)) =
      (sources.filter fun source => !decide
        (exclusion source request (currentRevisions request ledger) = none)).map
          fun source => (source.sourceId, source.tier) := by
  unfold ruledOut
  induction sources with
  | nil => rfl
  | cons source rest ih =>
    cases hwhy : exclusion source request (currentRevisions request ledger) with
    | none => simpa [hwhy] using ih
    | some reason => simpa [hwhy] using ih

theorem partition (h : Builds sources request ledger kept packet) :
    (packet.included.map (fun entry => (entry.sourceId, entry.tier)) ++
      packet.excluded.map fun entry => (entry.sourceId, entry.tier)).Perm
        (sources.map fun source => (source.sourceId, source.tier)) := by
  obtain ⟨dropped, hexcl, hperm⟩ := h.excluded
  have hincl : packet.included.map (fun entry => (entry.sourceId, entry.tier)) =
      kept.map fun source => (source.sourceId, source.tier) :=
    h.map_included _ _ fun _ => rfl
  have hsurvivors := hperm.trans (List.perm_insertionSort
    (fun source other : ContextSource => hierarchyKey source ≤ hierarchyKey other) _)
  have hparts := List.filter_append_perm (fun source => decide
    (exclusion source request (currentRevisions request ledger) = none)) sources
  rw [hincl, hexcl, List.map_append, map_ruledOut, List.map_map]
  refine ((List.perm_append_comm.append_left _).trans ?_).trans (hparts.map _)
  rw [← List.append_assoc, List.map_append]
  apply List.Perm.append_right
  simpa [Function.comp_def, overBudget] using
    hsurvivors.map fun source : ContextSource => (source.sourceId, source.tier)

theorem decides (h : Builds sources request ledger kept packet)
    (hnd : (sources.map ContextSource.sourceId).Nodup) : Decides sources request packet := by
  have htoks : packet.included.map Included.tokens = kept.map ContextSource.tokens :=
    h.map_included _ _ fun _ => rfl
  constructor
  · exact h.partition
  · intro entry hent
    rw [h.included] at hent
    obtain ⟨⟨source, position⟩, hmem, rfl⟩ := List.mem_map.mp hent
    exact ⟨source, h.kept_mem (List.fst_mem_of_mem_zipIdx hmem), rfl⟩
  · have hkeys : packet.included.map (fun entry =>
        toLex (hierarchy.idxOf entry.tier, entry.sourceId)) = kept.map hierarchyKey :=
      h.map_included _ _ fun _ => rfl
    have hsort := ((survivors_pairwise hnd).sublist h.kept_survive)
    have hpairs : (kept.map hierarchyKey).Pairwise (· < ·) := List.pairwise_map.mpr hsort
    rw [← hkeys] at hpairs
    exact List.pairwise_map.mp hpairs
  · rw [h.included, List.map_map, List.length_map, List.length_zipIdx]
    have hsnd : (Included.position ∘ includedAt) = (Prod.snd : ContextSource × Nat → Nat) := rfl
    rw [hsnd, List.zipIdx_map_snd, List.range_eq_range']
  · rw [h.used, htoks]
  · rw [h.used, h.kept_eq]
    exact sum_pack_le ..
  · have htiers : packet.included.map Included.tier = kept.map ContextSource.tier :=
      h.map_included _ _ fun _ => rfl
    have hcnt := congrArg (List.countP fun tier => tier = Tier.activeCorrections) htiers
    rw [List.countP_map, List.countP_map] at hcnt
    calc packet.included.countP (fun entry => entry.tier = .activeCorrections)
        = kept.countP fun source => source.tier = .activeCorrections := hcnt
      _ ≤ (eligible sources request ledger).countP fun source =>
            source.tier = .activeCorrections := h.kept_sublist.countP_le
      _ ≤ 2 := by
          have hcap := count_underCap_le (survivors sources request ledger)
            (Nat.zero_le maxActiveCorrections)
          rw [Nat.zero_add] at hcap
          exact hcap

/-- A packet trims from the bottom exactly when nothing is kept behind an
eligible source that is not. -/
theorem trims_iff (h : Builds sources request ledger kept packet)
    (hnd : (sources.map ContextSource.sourceId).Nodup) :
    TrimsFromBottom sources request ledger packet ↔
      ∀ before source after, eligible sources request ledger = before ++ source :: after →
        source ∉ kept → ∀ later ∈ after, later ∉ kept := by
  have hsort : (survivors sources request ledger).Pairwise Precedes :=
    survivors_pairwise hnd
  have heligible : (eligible sources request ledger).Pairwise Precedes :=
    hsort.sublist (underCap_sublist 0 _)
  have hmem : ∀ source ∈ survivors sources request ledger,
      (source ∈ eligible sources request ledger ↔
        ¬ Capped (survivors sources request ledger) source) := by
    intro source hsrc
    have hcap := @mem_underCap _ _ 0 hsort hsrc
    rw [Nat.zero_add] at hcap
    exact hcap
  constructor
  · intro htrims before source after hspl hout later hlat hkept
    have hin : source ∈ eligible sources request ledger := by simp [hspl]
    have hsurvives := (underCap_sublist 0 _).subset hin
    obtain ⟨hsrc, hnone⟩ := mem_survivors.mp hsurvives
    have hprecedes := (mem_after_iff (hspl ▸ heligible)).mp hlat
    obtain ⟨entry, hent, hid⟩ :=
      (h.exists_included_iff hnd (h.kept_mem hkept)).mpr hkept
    exact htrims source hsrc hnone ((h.overBudget_mem_iff hnd hsurvives).mpr hout)
      ((hmem source hsurvives).mp hin) later (h.kept_mem hkept) hprecedes.2 entry hent hid
  · intro hall source hsrc hnone hexcl huncapped later hlat hprecedes entry hent hid
    have hsurvives := mem_survivors.mpr ⟨hsrc, hnone⟩
    have hin := (hmem source hsurvives).mpr huncapped
    obtain ⟨before, after, hspl⟩ := List.append_of_mem hin
    have hkept := (h.exists_included_iff hnd hlat).mp ⟨entry, hent, hid⟩
    have ha : later ∈ after := by
      apply (mem_after_iff (hspl ▸ heligible)).mpr
      exact ⟨hspl ▸ h.kept_sublist.subset hkept, hprecedes⟩
    exact hall before source after hspl ((h.overBudget_mem_iff hnd hsurvives).mp hexcl)
      later ha hkept

end Builds

end Packet

/-- Every packet decides each source once, in order and within its budget, and
it trims from the bottom exactly when behind the first eligible source that
does not fit none of the later ones fits in its place. -/
theorem build_context_trims_iff (sources : List ContextSource) (request : ContextRequest)
    (ledger : MemoryLedger) (hnodup : (sources.map ContextSource.sourceId).Nodup) :
    Decides sources request (buildContext sources request ledger) ∧
      TrimsFromBottom sources request ledger (buildContext sources request ledger) ↔
        TrimsInOrder ContextSource.tokens request.tokenBudget
          (eligible sources request ledger) := by
  have hbuilds := buildContext_builds sources request ledger
  have hdistinct : (eligible sources request ledger).Nodup :=
    ((survivors_pairwise hnodup).sublist (underCap_sublist 0 _)).imp fun h => h.ne
  rw [and_iff_right (hbuilds.decides hnodup), hbuilds.trims_iff hnodup]
  exact pack_trims_iff hdistinct

def sampleSource (sourceId : String) (tier : Tier) (text : String) : ContextSource where
  sourceId := sourceId
  tier := tier
  ownerId := 7
  text := text
  sensitivity := .routine
  companyId := none
  revisionId := none
  isCurrentAnswer := false

/-- The assignment takes three tokens and the history two. -/
def sampleSources : List ContextSource :=
  [sampleSource "assignment" .currentAssignment "Explain joins",
    sampleSource "history" .broaderHistory "Group by"]

def sampleRequest (tokenBudget : Nat) (budget_pos : 0 < tokenBudget) : ContextRequest where
  ownerId := 7
  role := .coach
  ceiling := .routine
  time := 0
  tokenBudget := tokenBudget
  companyId := none
  owner_pos := by decide
  budget_pos := budget_pos

/-- Both sources fit. -/
theorem build_context_trims_sample :
    Decides sampleSources (sampleRequest 5 (by decide))
        (buildContext sampleSources (sampleRequest 5 (by decide)) []) ∧
      TrimsFromBottom sampleSources (sampleRequest 5 (by decide)) []
        (buildContext sampleSources (sampleRequest 5 (by decide)) []) := by
  apply (build_context_trims_iff sampleSources (sampleRequest 5 (by decide)) []
    (by decide)).mpr
  apply trimsInOrder_of_le
  decide +kernel

/-- The current assignment is left out for the budget, and history is included. -/
theorem build_context_drops_assignment :
    (sampleSources.map ContextSource.sourceId).Nodup ∧
      ¬ TrimsFromBottom sampleSources (sampleRequest 2 (by decide)) []
        (buildContext sampleSources (sampleRequest 2 (by decide)) []) := by
  refine ⟨by decide, fun htrims => ?_⟩
  have hkept := htrims (sampleSource "assignment" .currentAssignment "Explain joins") (by decide)
    (by decide) (by decide +kernel) (fun hcapped => by cases hcapped.1)
    (sampleSource "history" .broaderHistory "Group by") (by decide) (by decide +kernel)
    ⟨"history", .broaderHistory, 0, 2, none⟩ (by decide +kernel)
  exact hkept rfl

end TamForge.Memory
