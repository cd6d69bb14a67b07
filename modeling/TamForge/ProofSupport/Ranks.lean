import Mathlib.Data.Finset.Card
import Mathlib.Data.Finset.Range
import Mathlib.Data.List.Pairwise
import Mathlib.Data.List.Sort
import Mathlib.Order.OrderDual

/-!
# Ranks under two orders

The rank of an item is the number of items before it.  Two orders of the same
items put the same so many items first, unless a pair on which they disagree
lies across the cut.
-/

namespace TamForge.ProofSupport

variable {α κ ι : Type*} [DecidableEq α] [LinearOrder κ] [LinearOrder ι]

def rank (key : α → κ) (items : List α) (item : α) : Nat :=
  items.countP fun other => decide (key other < key item)

variable {key : α → κ} {other : α → ι} {items : List α} {item first second : α} {count : Nat}

/-! ## Ranks in one order -/

theorem rank_eq_card (hnodup : items.Nodup) (item : α) :
    rank key items item = (items.toFinset.filter fun lower => key lower < key item).card := by
  have hfilt : (items.toFinset.filter fun lower => key lower < key item) =
      (items.filter fun lower => decide (key lower < key item)).toFinset := by
    rw [List.toFinset_filter]
    simp
  rw [hfilt, List.toFinset_card_of_nodup (hnodup.filter _), rank, List.countP_eq_length_filter]

theorem rank_lt_rank (hnodup : items.Nodup) (hmem : first ∈ items)
    (hlt : key first < key second) : rank key items first < rank key items second := by
  rw [rank_eq_card hnodup, rank_eq_card hnodup]
  apply Finset.card_lt_card
  rw [Finset.ssubset_iff_of_subset]
  · exact ⟨first, by simp [hmem, hlt], by simp⟩
  · intro lower hlower
    rw [Finset.mem_filter] at hlower ⊢
    exact ⟨hlower.1, hlower.2.trans hlt⟩

theorem rank_injOn (hnodup : items.Nodup)
    (hkey : ∀ first ∈ items, ∀ second ∈ items, key first = key second → first = second) :
    ∀ first ∈ items, ∀ second ∈ items, rank key items first = rank key items second →
      first = second := by
  intro first hfst second hsec heq
  rcases lt_trichotomy (key first) (key second) with hlt | hsame | hlt
  · exact absurd heq (rank_lt_rank hnodup hfst hlt).ne
  · exact hkey first hfst second hsec hsame
  · exact absurd heq (rank_lt_rank hnodup hsec hlt).ne'

omit [DecidableEq α] in
theorem rank_split {before after : List α}
    (hsort : (before ++ item :: after).Pairwise fun first second => key first < key second) :
    rank key (before ++ item :: after) item = before.length ∧
      rank (fun entry => OrderDual.toDual (key entry)) (before ++ item :: after) item =
        after.length := by
  rw [List.pairwise_append, List.pairwise_cons] at hsort
  obtain ⟨-, ⟨ha, -⟩, hb⟩ := hsort
  have hlower : ∀ entry ∈ before, key entry < key item := fun entry hent =>
    hb entry hent item (List.mem_cons_self ..)
  unfold rank
  constructor
  · rw [List.countP_append, List.countP_cons, List.countP_eq_length.mpr, List.countP_eq_zero.mpr]
    · simp
    · intro entry hent
      simpa using (ha entry hent).le
    · intro entry hent
      simpa using hlower entry hent
  · rw [List.countP_append, List.countP_cons, List.countP_eq_zero.mpr, List.countP_eq_length.mpr]
    · simp
    · intro entry hent
      simpa using ha entry hent
    · intro entry hent
      simpa using (hlower entry hent).le

omit [DecidableEq α] in
theorem mem_drop_iff (hmem : item ∈ items)
    (hsort : items.Pairwise fun first second => key first < key second) :
    item ∈ items.drop (items.length - count) ↔
      rank (fun entry => OrderDual.toDual (key entry)) items item < count := by
  obtain ⟨before, after, rfl⟩ := List.append_of_mem hmem
  rw [(rank_split hsort).2, List.length_append, List.length_cons]
  constructor
  · intro hdrop
    by_contra hge
    have hpast : before.length + (after.length + 1) - count - before.length =
        (after.length - count) + 1 := by omega
    rw [List.drop_append, List.drop_eq_nil_of_le (by omega), hpast, List.nil_append,
      List.drop_succ_cons] at hdrop
    rw [List.pairwise_append, List.pairwise_cons] at hsort
    exact absurd (hsort.2.1.1 item (List.mem_of_mem_drop hdrop)) (lt_irrefl _)
  · intro hlt
    have hplace : before.length + (after.length + 1) - count ≤ before.length := by omega
    rw [List.drop_append_of_le_length hplace]
    exact List.mem_append_right _ (List.mem_cons_self ..)

def below (key : α → κ) (items : List α) (count : Nat) : Finset α :=
  items.toFinset.filter fun item => rank key items item < count

theorem mem_below : item ∈ below key items count ↔
    item ∈ items ∧ rank key items item < count := by
  simp [below]

variable (hnodup : items.Nodup)
  (hkey : ∀ first ∈ items, ∀ second ∈ items, key first = key second → first = second)
include hnodup hkey

theorem card_below_le : (below key items count).card ≤ count := by
  have hinjective : Set.InjOn (rank key items) (below key items count) := by
    intro first hfst second hsec heq
    exact rank_injOn hnodup hkey first (mem_below.mp hfst).1 second (mem_below.mp hsec).1 heq
  have hmaps : ∀ item ∈ below key items count, rank key items item ∈ Finset.range count := by
    intro item hitem
    exact Finset.mem_range.mpr (mem_below.mp hitem).2
  have hcard := Finset.card_le_card_of_injOn (rank key items) hmaps hinjective
  rwa [Finset.card_range] at hcard

theorem exists_rank_eq {number : Nat} (hlt : number < rank key items item) :
    ∃ lower ∈ items, rank key items lower = number := by
  let lowers := items.toFinset.filter fun lower => key lower < key item
  have hcard : lowers.card = rank key items item := (rank_eq_card hnodup item).symm
  have hinjective : Set.InjOn (rank key items) lowers := by
    intro first hfst second hsec heq
    have hfstMem : first ∈ items := by simpa using (Finset.mem_filter.mp hfst).1
    have hsecMem : second ∈ items := by simpa using (Finset.mem_filter.mp hsec).1
    exact rank_injOn hnodup hkey first hfstMem second hsecMem heq
  have hsub : lowers.image (rank key items) ⊆ Finset.range (rank key items item) := by
    intro value hval
    obtain ⟨lower, hlower, rfl⟩ := Finset.mem_image.mp hval
    rw [Finset.mem_filter, List.mem_toFinset] at hlower
    exact Finset.mem_range.mpr (rank_lt_rank hnodup hlower.1 hlower.2)
  have himage : lowers.image (rank key items) = Finset.range (rank key items item) := by
    apply Finset.eq_of_subset_of_card_le hsub
    rw [Finset.card_range, Finset.card_image_of_injOn hinjective, hcard]
  have hmem : number ∈ lowers.image (rank key items) := by
    rw [himage]
    exact Finset.mem_range.mpr hlt
  obtain ⟨lower, hlower, hrank⟩ := Finset.mem_image.mp hmem
  exact ⟨lower, by simpa using (Finset.mem_filter.mp hlower).1, hrank⟩

theorem le_card_below (hle : count ≤ rank key items item) :
    count ≤ (below key items count).card := by
  have hsub : Finset.range count ⊆ (below key items count).image (rank key items) := by
    intro num hnum
    have hlt := Finset.mem_range.mp hnum
    obtain ⟨lower, hlower, hrank⟩ := exists_rank_eq hnodup hkey (hlt.trans_le hle)
    exact Finset.mem_image.mpr ⟨lower, mem_below.mpr ⟨hlower, hrank ▸ hlt⟩, hrank⟩
  calc count = (Finset.range count).card := (Finset.card_range count).symm
    _ ≤ ((below key items count).image (rank key items)).card := Finset.card_le_card hsub
    _ ≤ (below key items count).card := Finset.card_image_le

/-! ## Two orders -/

variable (key other) in
/-- Two orders put the same items first exactly when no pair on which they
disagree lies across the cut. -/
theorem same_below_iff (count : Nat)
    (ho : ∀ first ∈ items, ∀ second ∈ items, other first = other second → first = second) :
    (∀ item ∈ items, rank key items item < count ↔ rank other items item < count) ↔
      ∀ first ∈ items, ∀ second ∈ items, other first < other second → key second < key first →
        ¬(rank key items second < count ∧ count ≤ rank key items first) := by
  constructor
  · intro hsame first hfst second hsec hord _ hcut
    have hbelow := (hsame second hsec).mp hcut.1
    have hlower := rank_lt_rank hnodup hfst hord
    have habove := (hsame first hfst).mpr (hlower.trans hbelow)
    omega
  · intro hclear
    -- The items that the first order puts first are closed under the second.
    have hclos : ∀ first ∈ items, ∀ second ∈ below key items count,
        other first < other second → first ∈ below key items count := by
      intro first hfst second hsec hord
      rw [mem_below] at hsec ⊢
      refine ⟨hfst, ?_⟩
      rcases lt_trichotomy (key first) (key second) with hlt | hequal | hlt
      · exact (rank_lt_rank hnodup hfst hlt).trans hsec.2
      · rw [hkey first hfst second hsec.1 hequal]
        exact hsec.2
      · by_contra hge
        exact hclear first hfst second hsec.1 hord hlt ⟨hsec.2, Nat.le_of_not_lt hge⟩
    intro item hitem
    constructor
    · intro hlt
      have hmem : item ∈ below key items count := mem_below.mpr ⟨hitem, hlt⟩
      have hsub : (items.toFinset.filter fun lower => other lower < other item) ⊂
          below key items count := by
        rw [Finset.ssubset_iff_of_subset]
        · exact ⟨item, hmem, by simp⟩
        · intro lower hlower
          rw [Finset.mem_filter, List.mem_toFinset] at hlower
          exact hclos lower hlower.1 item hmem hlower.2
      rw [rank_eq_card hnodup]
      exact (Finset.card_lt_card hsub).trans_le (card_below_le hnodup hkey)
    · intro hlt
      by_contra hge
      have hle := Nat.le_of_not_lt hge
      have hsub : below key items count ⊆
          items.toFinset.filter fun lower => other lower < other item := by
        intro lower hlower
        have hlowerMem := (mem_below.mp hlower).1
        rw [Finset.mem_filter, List.mem_toFinset]
        refine ⟨hlowerMem, ?_⟩
        rcases lt_trichotomy (other lower) (other item) with hb | hequal | ha
        · exact hb
        · rw [ho lower hlowerMem item hitem hequal] at hlower
          exact absurd (mem_below.mp hlower).2 hge
        · exact absurd (mem_below.mp (hclos item hitem lower hlower ha)).2 hge
      have hcard := Finset.card_le_card hsub
      rw [← rank_eq_card hnodup] at hcard
      have hcnt := le_card_below hnodup hkey hle
      omega

end TamForge.ProofSupport

/-!
## Sorting by a key

`sorted(items, key=…)`.  Items with distinct keys have one order, whatever order
they come in.
-/

namespace TamForge.ProofSupport

variable {α κ : Type*} [LinearOrder κ] {items others : List α}

def sortedBy (key : α → κ) (items : List α) : List α :=
  items.mergeSort fun first second => decide (key first ≤ key second)

variable {key : α → κ}

theorem sortedBy_perm (key : α → κ) (items : List α) : (sortedBy key items).Perm items :=
  List.mergeSort_perm _ _

theorem sortedBy_pairwise (key : α → κ) (items : List α) :
    (sortedBy key items).Pairwise fun first second => key first ≤ key second := by
  refine (List.pairwise_mergeSort ?_ ?_ items).imp of_decide_eq_true
  · intro first second third hfst hsec
    exact decide_eq_true (le_trans (of_decide_eq_true hfst) (of_decide_eq_true hsec))
  · intro first second
    simpa using le_total (key first) (key second)

theorem sortedBy_eq_of_perm (hperm : others.Perm items)
    (hkey : ∀ first ∈ others, ∀ second ∈ others, key first = key second → first = second) :
    sortedBy key others = sortedBy key items := by
  have hos := sortedBy_perm key others
  apply List.Perm.eq_of_pairwise _ (sortedBy_pairwise key others) (sortedBy_pairwise key items)
    (hos.trans (hperm.trans (sortedBy_perm key items).symm))
  intro first second hfst hsec hle hge
  apply hkey first (hos.mem_iff.mp hfst) second
  · exact hperm.mem_iff.mpr ((sortedBy_perm key items).mem_iff.mp hsec)
  · exact le_antisymm hle hge

end TamForge.ProofSupport
