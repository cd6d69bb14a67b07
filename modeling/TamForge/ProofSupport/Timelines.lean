import Mathlib.Algebra.Order.BigOperators.Group.List
import Mathlib.Algebra.Order.Group.Int
import Mathlib.Data.List.Chain
import Mathlib.Tactic.Linarith

/-!
# Timelines

A list of items with a start and a stop, where each item stops before the next
one starts.  The items and the gaps between them add up to the whole.
-/

namespace TamForge.ProofSupport

variable {α β : Type} {start stop : α → Nat} {list : List α} {first last item : α}

def Chronological (start stop : α → Nat) (list : List α) : Prop :=
  list.Pairwise fun earlier later => stop earlier ≤ start later

def gapsOf (start stop : α → Nat) (list : List α) : List Int :=
  list.zipWith (fun earlier later => max 0 ((start later : Int) - stop earlier)) list.tail

namespace Chronological

theorem of_isChain (hspan : ∀ item ∈ list, start item ≤ stop item)
    (h : list.IsChain fun earl later => stop earl ≤ start later) :
    Chronological start stop list := by
  induction list with
  | nil => exact List.Pairwise.nil
  | cons first rest ih =>
    have hrest := ih (fun item hitem => hspan item (List.mem_cons_of_mem _ hitem)) h.tail
    apply List.Pairwise.cons _ hrest
    intro item hitem
    cases rest with
    | nil => cases hitem
    | cons second others =>
      have hfst : stop first ≤ start second := (List.isChain_cons_cons.mp h).1
      rcases List.mem_cons.mp hitem with rfl | ho
      · exact hfst
      · calc stop first ≤ start second := hfst
          _ ≤ stop second := hspan second (by simp)
          _ ≤ start item := List.rel_of_pairwise_cons hrest ho

theorem start_le_stop (h : Chronological start stop list)
    (hspan : ∀ item ∈ list, start item ≤ stop item) (hfst : list.head? = some first)
    (hlast : list.getLast? = some last) : start first ≤ stop last := by
  have hmem : last ∈ list := List.mem_of_getLast? hlast
  cases list with
  | nil => cases hfst
  | cons head rest =>
    cases hfst
    rcases List.mem_cons.mp hmem with rfl | hrest
    · exact hspan _ (by simp)
    · calc start first ≤ stop first := hspan first (by simp)
        _ ≤ start last := List.rel_of_pairwise_cons h hrest
        _ ≤ stop last := hspan last hmem

/-- Items within the items of a timeline are a timeline. -/
theorem flatMap {inner : α → List β} {innerStart innerStop : β → Nat}
    (h : Chronological start stop list)
    (hinner : ∀ item ∈ list, Chronological innerStart innerStop (inner item))
    (hwithin : ∀ item ∈ list, ∀ part ∈ inner item,
      start item ≤ innerStart part ∧ innerStop part ≤ stop item) :
    Chronological innerStart innerStop (list.flatMap inner) := by
  unfold Chronological
  rw [List.pairwise_flatMap]
  refine ⟨hinner, h.imp_of_mem ?_⟩
  intro earlier later hearl hlat hle part hpart other ho
  calc innerStop part ≤ stop earlier := (hwithin earlier hearl part hpart).2
    _ ≤ start later := hle
    _ ≤ innerStart other := (hwithin later hlat other ho).1

theorem gapsOf_nonneg : ∀ gap ∈ gapsOf start stop list, 0 ≤ gap := by
  intro gap hgap
  obtain ⟨n, hn, rfl⟩ := List.mem_iff_getElem.mp hgap
  simp [gapsOf]

theorem sum_add_gapsOf (h : Chronological start stop list)
    (hfst : list.head? = some first) (hlast : list.getLast? = some last) :
    (list.map fun item => (stop item : Int) - start item).sum + (gapsOf start stop list).sum =
      (stop last : Int) - start first := by
  induction list generalizing first with
  | nil => cases hfst
  | cons head rest ih =>
    cases hfst
    cases rest with
    | nil =>
      cases hlast
      simp [gapsOf]
    | cons second others =>
      rw [List.getLast?_cons_cons] at hlast
      have hrest := ih (List.Pairwise.of_cons h) rfl hlast
      have hgap : stop head ≤ start second := List.rel_of_pairwise_cons h (by simp)
      have hmax : max 0 ((start second : Int) - stop head) = start second - stop head := by
        omega
      have hgaps : gapsOf start stop (head :: second :: others) =
          max 0 ((start second : Int) - stop head) :: gapsOf start stop (second :: others) :=
        rfl
      rw [hgaps, List.map_cons, List.sum_cons, List.sum_cons, hmax]
      linarith

end Chronological

end TamForge.ProofSupport
