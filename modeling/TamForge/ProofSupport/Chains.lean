import Mathlib.Data.List.Chain
import Mathlib.Data.List.Nodup
import Mathlib.Data.List.Perm.Basic

/-!
# Records whose items replace earlier ones

Each item has a key and may replace one earlier item, named by its key, that
nothing has replaced so far.  The items then fall into chains, in which every
item replaces the one before it, and the items that nothing replaces are the
last ones.
-/

namespace TamForge.ProofSupport

variable {α κ : Type}

/-- A record that grew item by item. -/
inductive Succession (key : α → κ) (link : α → Option κ) : List α → Prop
  | nil : Succession key link []
  | snoc {items : List α} {item : α} (before : Succession key link items)
      (fresh : ∀ other ∈ items, key other ≠ key item)
      (replaces : ∀ target, link item = some target →
        (∃ old ∈ items, key old = target) ∧ ∀ other ∈ items, link other ≠ some target) :
      Succession key link (items ++ [item])

def Standing (key : α → κ) (link : α → Option κ) (items : List α) (item : α) : Prop :=
  item ∈ items ∧ ∀ other ∈ items, link other ≠ some (key item)

structure Chained (key : α → κ) (link : α → Option κ) (items : List α)
    (chains : List (List α)) : Prop where
  perm : chains.flatten.Perm items
  headed : ∀ chain ∈ chains, ∃ first, chain.head? = some first ∧ link first = none
  linked : ∀ chain ∈ chains, chain.IsChain fun old new => link new = some (key old)
  last_iff : ∀ item, (∃ chain ∈ chains, chain.getLast? = some item) ↔
    Standing key link items item

variable {key : α → κ} {link : α → Option κ} {items : List α} {item other : α} {target : κ}

namespace Succession

theorem nodup (h : Succession key link items) : (items.map key).Nodup := by
  induction h with
  | nil => exact List.nodup_nil
  | snoc before fresh replaces ih =>
    rw [List.map_append, List.map_cons, List.map_nil, List.nodup_append]
    refine ⟨ih, List.nodup_singleton _, ?_⟩
    rintro _ hmem _ hlast rfl
    obtain ⟨old, hold, hkey⟩ := List.mem_map.mp hmem
    exact fresh old hold (hkey.trans (List.mem_singleton.mp hlast))

theorem exists_target (h : Succession key link items) (hitem : item ∈ items)
    (hlink : link item = some target) : ∃ old ∈ items, key old = target := by
  induction h with
  | nil => cases hitem
  | snoc before fresh replaces ih =>
    rcases List.mem_append.mp hitem with hold | hlast
    · obtain ⟨old, hmem, hkey⟩ := ih hold
      exact ⟨old, List.mem_append_left _ hmem, hkey⟩
    · obtain rfl := List.mem_singleton.mp hlast
      obtain ⟨old, hmem, hkey⟩ := (replaces target hlink).1
      exact ⟨old, List.mem_append_left _ hmem, hkey⟩

theorem link_injective (h : Succession key link items) (hitem : item ∈ items)
    (ho : other ∈ items) (hlink : link item = some target)
    (hlinked : link other = some target) : item = other := by
  induction h with
  | nil => cases hitem
  | snoc before fresh replaces ih =>
    rcases List.mem_append.mp hitem with hold | hlast <;>
      rcases List.mem_append.mp ho with hin | hnew
    · exact ih hold hin
    · obtain rfl := List.mem_singleton.mp hnew
      exact absurd hlink ((replaces target hlinked).2 item hold)
    · obtain rfl := List.mem_singleton.mp hlast
      exact absurd hlinked ((replaces target hlink).2 other hin)
    · rw [List.mem_singleton.mp hlast, List.mem_singleton.mp hnew]

variable {before : List α}

theorem standing_snoc (hb : Succession key link before)
    (fresh : ∀ other ∈ before, key other ≠ key item) (hself : link item ≠ some (key item)) :
    Standing key link (before ++ [item]) other ↔
      other = item ∨ Standing key link before other ∧ link item ≠ some (key other) := by
  unfold Standing
  constructor
  · rintro ⟨hmem, hnone⟩
    rcases List.mem_append.mp hmem with hold | hlast
    · right
      refine ⟨⟨hold, fun old hin => hnone old (List.mem_append_left _ hin)⟩, ?_⟩
      exact hnone item (by simp)
    · exact Or.inl (List.mem_singleton.mp hlast)
  · rintro (rfl | ⟨⟨hold, hnone⟩, hlast⟩)
    · refine ⟨by simp, fun old hin hlink => ?_⟩
      rcases List.mem_append.mp hin with hold | hnew
      · obtain ⟨first, hfst, hkey⟩ := hb.exists_target hold hlink
        exact fresh first hfst hkey
      · obtain rfl := List.mem_singleton.mp hnew
        exact hself hlink
    · refine ⟨List.mem_append_left _ hold, fun old hin => ?_⟩
      rcases List.mem_append.mp hin with hin | hnew
      · exact hnone old hin
      · obtain rfl := List.mem_singleton.mp hnew
        exact hlast

end Succession

theorem mem_middle {left right : List α} {middle : α} :
    item ∈ left ++ middle :: right ↔ item = middle ∨ item ∈ left ++ right := by
  rw [List.mem_append, List.mem_cons, List.mem_append, or_left_comm]

namespace Chained

variable {before : List α} {chains left right : List (List α)} {chain : List α} {old : α}

theorem start (h : Chained key link before chains) (hb : Succession key link before)
    (fresh : ∀ other ∈ before, key other ≠ key item) (hlink : link item = none) :
    Chained key link (before ++ [item]) (chains ++ [[item]]) := by
  have hself : link item ≠ some (key item) := by simp [hlink]
  refine ⟨?_, ?_, ?_, fun other => ?_⟩
  · rw [List.flatten_append]
    simpa using h.perm.append_right [item]
  · intro grown hgrown
    rcases List.mem_append.mp hgrown with hold | hnew
    · exact h.headed grown hold
    · obtain rfl := List.mem_singleton.mp hnew
      exact ⟨item, rfl, hlink⟩
  · intro grown hgrown
    rcases List.mem_append.mp hgrown with hold | hnew
    · exact h.linked grown hold
    · obtain rfl := List.mem_singleton.mp hnew
      exact List.isChain_singleton item
  · rw [hb.standing_snoc fresh hself, ← h.last_iff other, hlink]
    constructor
    · rintro ⟨grown, hgrown, hend⟩
      rcases List.mem_append.mp hgrown with hold | hnew
      · exact Or.inr ⟨⟨grown, hold, hend⟩, by simp⟩
      · obtain rfl := List.mem_singleton.mp hnew
        exact Or.inl (by simpa using hend.symm)
    · rintro (rfl | ⟨⟨grown, hgrown, hend⟩, -⟩)
      · exact ⟨[other], by simp, rfl⟩
      · exact ⟨grown, List.mem_append_left _ hgrown, hend⟩

theorem last_unique (h : Chained key link before (left ++ chain :: right))
    (hb : Succession key link before) (hend : chain.getLast? = some old) :
    ∀ grown ∈ left ++ right, grown.getLast? ≠ some old := by
  intro grown hgrown hlast
  have hnd := h.perm.nodup_iff.mpr (List.Nodup.of_map _ hb.nodup)
  have hspl : (left ++ chain :: right).Perm (chain :: (left ++ right)) := List.perm_middle
  rw [hspl.flatten.nodup_iff, List.flatten_cons, List.nodup_append] at hnd
  exact hnd.2.2 old (List.mem_of_getLast? hend) old
    (List.mem_flatten.mpr ⟨grown, hgrown, List.mem_of_getLast? hlast⟩) rfl

theorem last_rest_iff (h : Chained key link before (left ++ chain :: right))
    (hb : Succession key link before) (hend : chain.getLast? = some old) :
    (∃ grown ∈ left ++ right, grown.getLast? = some other) ↔
      Standing key link before other ∧ key old ≠ key other := by
  constructor
  · rintro ⟨grown, hgrown, hlast⟩
    have hstanding := (h.last_iff other).mp ⟨grown, mem_middle.mpr (Or.inr hgrown), hlast⟩
    have hold := ((h.last_iff old).mp ⟨chain, mem_middle.mpr (Or.inl rfl), hend⟩).1
    refine ⟨hstanding, fun hsame => ?_⟩
    obtain rfl := List.inj_on_of_nodup_map hb.nodup hold hstanding.1 hsame
    exact h.last_unique hb hend grown hgrown hlast
  · rintro ⟨hstanding, hne⟩
    obtain ⟨grown, hgrown, hlast⟩ := (h.last_iff other).mpr hstanding
    rcases mem_middle.mp hgrown with rfl | hrest
    · rw [hend, Option.some.injEq] at hlast
      exact absurd (congrArg key hlast) hne
    · exact ⟨grown, hrest, hlast⟩

theorem extend (h : Chained key link before (left ++ chain :: right))
    (hb : Succession key link before) (fresh : ∀ other ∈ before, key other ≠ key item)
    (hend : chain.getLast? = some old) (hlink : link item = some (key old)) :
    Chained key link (before ++ [item]) (left ++ (chain ++ [item]) :: right) := by
  have hmem := ((h.last_iff old).mp ⟨chain, mem_middle.mpr (Or.inl rfl), hend⟩).1
  have hself : link item ≠ some (key item) := by
    rw [hlink]
    exact fun hsame => fresh old hmem (Option.some.inj hsame)
  refine ⟨?_, ?_, ?_, fun other => ?_⟩
  · have hgrown : (left ++ (chain ++ [item]) :: right).flatten.Perm
        ((left ++ chain :: right).flatten ++ [item]) := by
      simp only [List.flatten_append, List.flatten_cons, List.append_assoc]
      exact (List.perm_append_comm.append_left chain).append_left left.flatten
    exact hgrown.trans (h.perm.append_right [item])
  · intro grown hgrown
    rcases mem_middle.mp hgrown with rfl | hrest
    · obtain ⟨first, hfst, hnone⟩ := h.headed chain (mem_middle.mpr (Or.inl rfl))
      exact ⟨first, by simp [List.head?_append, hfst], hnone⟩
    · exact h.headed grown (mem_middle.mpr (Or.inr hrest))
  · intro grown hgrown
    rcases mem_middle.mp hgrown with rfl | hrest
    · rw [List.isChain_append]
      refine ⟨h.linked chain (mem_middle.mpr (Or.inl rfl)), List.isChain_singleton item, ?_⟩
      intro previous hprevious next hnext
      simp only [List.head?_cons, Option.mem_def, Option.some.injEq] at hnext
      rw [Option.mem_def, hend, Option.some.injEq] at hprevious
      rw [← hnext, ← hprevious, hlink]
    · exact h.linked grown (mem_middle.mpr (Or.inr hrest))
  · rw [hb.standing_snoc fresh hself, hlink, ne_eq, Option.some.injEq,
      ← h.last_rest_iff hb hend]
    constructor
    · rintro ⟨grown, hgrown, hlast⟩
      rcases mem_middle.mp hgrown with rfl | hrest
      · exact Or.inl (by simpa using hlast.symm)
      · exact Or.inr ⟨grown, hrest, hlast⟩
    · rintro (rfl | ⟨grown, hrest, hlast⟩)
      · exact ⟨chain ++ [other], mem_middle.mpr (Or.inl rfl), by simp⟩
      · exact ⟨grown, mem_middle.mpr (Or.inr hrest), hlast⟩

end Chained

theorem Succession.exists_chained (h : Succession key link items) :
    ∃ chains, Chained key link items chains := by
  induction h with
  | nil =>
    refine ⟨[], List.Perm.refl _, by simp, by simp, fun item => ?_⟩
    simp [Standing]
  | @snoc before item hb fresh replaces ih =>
    obtain ⟨chains, hchains⟩ := ih
    cases hlink : link item with
    | none => exact ⟨_, hchains.start hb fresh hlink⟩
    | some target =>
      obtain ⟨⟨old, hold, rfl⟩, hfree⟩ := replaces target hlink
      obtain ⟨chain, hchain, hend⟩ := (hchains.last_iff old).mpr ⟨hold, hfree⟩
      obtain ⟨left, right, rfl⟩ := List.append_of_mem hchain
      exact ⟨_, hchains.extend hb fresh hend hlink⟩

end TamForge.ProofSupport
