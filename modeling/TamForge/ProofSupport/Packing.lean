import Mathlib.Algebra.BigOperators.Group.List.Basic
import Mathlib.Algebra.Order.Ring.Int
import Mathlib.Data.List.Nodup

/-!
# Packing in order

Items of a weight are offered one after another and taken whenever they fit the
room that is left.  An item that does not fit is passed over, so a later and
lighter one may still be taken.  `TrimsInOrder` says when that never happens.
-/

namespace TamForge.ProofSupport

variable {α : Type}

/-- The items that are taken, in their order. -/
def pack (weight : α → Nat) : Nat → List α → List α
  | _, [] => []
  | room, item :: rest =>
    if weight item ≤ room then item :: pack weight (room - weight item) rest
    else pack weight room rest

def TrimsInOrder (weight : α → Nat) (room : Nat) (items : List α) : Prop :=
  ∀ before item after, items = before ++ item :: after → (before.map weight).sum ≤ room →
    room < (before.map weight).sum + weight item →
      ∀ later ∈ after, room < (before.map weight).sum + weight later

variable {weight : α → Nat} {room : Nat} {item : α} {items rest : List α}

theorem pack_fits (h : weight item ≤ room) :
    pack weight room (item :: rest) = item :: pack weight (room - weight item) rest := by
  rw [pack, if_pos h]

theorem pack_over (h : room < weight item) :
    pack weight room (item :: rest) = pack weight room rest := by
  rw [pack, if_neg (by omega)]

theorem pack_sublist (weight : α → Nat) (room : Nat) (items : List α) :
    (pack weight room items).Sublist items := by
  induction items generalizing room with
  | nil => exact List.Sublist.refl _
  | cons item rest ih =>
    by_cases hfits : weight item ≤ room
    · rw [pack_fits hfits]
      exact (ih _).cons_cons item
    · rw [pack_over (by omega)]
      exact (ih _).cons item

theorem sum_pack_le (weight : α → Nat) (room : Nat) (items : List α) :
    ((pack weight room items).map weight).sum ≤ room := by
  induction items generalizing room with
  | nil => simp [pack]
  | cons item rest ih =>
    by_cases hfits : weight item ≤ room
    · rw [pack_fits hfits, List.map_cons, List.sum_cons]
      have hrest := ih (room - weight item)
      omega
    · rw [pack_over (by omega)]
      exact ih room

theorem pack_eq_nil_iff : pack weight room items = [] ↔ ∀ item ∈ items, room < weight item := by
  induction items with
  | nil => simp [pack]
  | cons item rest ih =>
    by_cases hfits : weight item ≤ room
    · rw [pack_fits hfits]
      constructor
      · intro hnil
        cases hnil
      · intro hall
        have hover := hall item (List.mem_cons_self ..)
        omega
    · rw [pack_over (by omega), ih]
      simp only [List.mem_cons, forall_eq_or_imp]
      constructor
      · exact fun h => ⟨by omega, h⟩
      · exact fun h => h.2

theorem trimsInOrder_fits (h : weight item ≤ room) :
    TrimsInOrder weight room (item :: rest) ↔
      TrimsInOrder weight (room - weight item) rest := by
  constructor
  · intro htrims before other after hrest hroom hover later hlat
    have hall := htrims (item :: before) other after (by rw [hrest, List.cons_append])
    simp only [List.map_cons, List.sum_cons] at hall
    have hlast := hall (by omega) (by omega) later hlat
    omega
  · intro htrims before other after hitems hroom hover later hlat
    cases before with
    | nil =>
      obtain ⟨rfl, rfl⟩ : item = other ∧ rest = after := by simpa using hitems
      simp only [List.map_nil, List.sum_nil] at hover
      omega
    | cons first before =>
      obtain ⟨rfl, hrest⟩ : item = first ∧ rest = before ++ other :: after := by
        simpa using hitems
      simp only [List.map_cons, List.sum_cons] at hroom hover ⊢
      have hlast := htrims before other after hrest (by omega) (by omega) later hlat
      omega

theorem trimsInOrder_over (h : room < weight item) :
    TrimsInOrder weight room (item :: rest) ↔ ∀ later ∈ rest, room < weight later := by
  constructor
  · intro htrims later hlat
    simpa using htrims [] item rest rfl (by simp) (by simpa using h) later hlat
  · intro hall before other after hitems hroom hover later hlat
    cases before with
    | nil =>
      obtain ⟨rfl, rfl⟩ : item = other ∧ rest = after := by simpa using hitems
      simpa using hall later hlat
    | cons first before =>
      obtain ⟨rfl, -⟩ : item = first ∧ rest = before ++ other :: after := by
        simpa using hitems
      simp only [List.map_cons, List.sum_cons] at hroom
      omega

theorem trimsInOrder_of_le (h : (items.map weight).sum ≤ room) :
    TrimsInOrder weight room items := by
  rintro before item after rfl - hover later -
  simp only [List.map_append, List.map_cons, List.sum_append, List.sum_cons] at h
  omega

/-- Nothing is taken behind an item that is refused, exactly when the items trim
in order. -/
theorem pack_trims_iff (hnd : items.Nodup) :
    (∀ before item after, items = before ++ item :: after → item ∉ pack weight room items →
      ∀ later ∈ after, later ∉ pack weight room items) ↔ TrimsInOrder weight room items := by
  induction items generalizing room with
  | nil => simp [TrimsInOrder]
  | cons first rest ih =>
    obtain ⟨hfst, hrest⟩ := List.nodup_cons.mp hnd
    by_cases hfits : weight first ≤ room
    · rw [trimsInOrder_fits hfits, ← ih hrest, pack_fits hfits]
      constructor
      · intro hall before item after hspl hout later hlat
        have hne : ∀ other ∈ rest, other ≠ first := fun other ho heq =>
          hfst (heq ▸ ho)
        have hitem : item ∈ rest := by simp [hspl]
        have ha : later ∈ rest := by simp [hspl, hlat]
        have hlast := hall (first :: before) item after (by rw [hspl, List.cons_append])
          (by simpa [hne item hitem] using hout) later hlat
        simpa [hne later ha] using hlast
      · intro hall before item after hspl hout later hlat
        cases before with
        | nil =>
          obtain ⟨rfl, -⟩ : first = item ∧ rest = after := by simpa using hspl
          simp at hout
        | cons head before =>
          obtain ⟨rfl, htail⟩ : first = head ∧ rest = before ++ item :: after := by
            simpa using hspl
          have ha : later ∈ rest := by simp [htail, hlat]
          have hne : later ≠ first := fun heq => hfst (heq ▸ ha)
          have hlast := hall before item after htail
            (fun hin => hout (List.mem_cons_of_mem _ hin)) later hlat
          simpa [hne] using hlast
    · rw [trimsInOrder_over (by omega), ← pack_eq_nil_iff, pack_over (by omega)]
      constructor
      · intro hall
        rw [List.eq_nil_iff_forall_not_mem]
        intro later hin
        have ha := (pack_sublist weight room rest).subset hin
        refine hall [] first rest rfl ?_ later ha hin
        exact fun hmem => hfst ((pack_sublist weight room rest).subset hmem)
      · intro hnil before item after _ _ later _
        simp [hnil]

end TamForge.ProofSupport
