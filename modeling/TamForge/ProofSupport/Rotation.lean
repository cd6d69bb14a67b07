import Mathlib.Data.List.Basic

/-!
# Rotation tiers

A tier keeps a part of a list that has the newest first.  When it never takes back
what it dropped, and what it keeps of a list decides what it keeps of that list
without some of the rest, dropping as one goes keeps what dropping in the end would.
-/

namespace TamForge.ProofSupport

variable {α κ : Type*}

structure Tier (keeps : List α → List α) : Prop where
  subset : ∀ items, keeps items ⊆ items
  forgets : ∀ item items, ∀ kept ∈ keeps (item :: items), kept = item ∨ kept ∈ keeps items
  stable : ∀ items rest, items.Nodup → rest.Sublist items → keeps items ⊆ rest →
    keeps rest = keeps items

theorem Tier.append {first second : List α → List α} (hfst : Tier first) (hsec : Tier second) :
    Tier fun items => first items ++ second items := by
  constructor
  · intro items
    exact List.append_subset.mpr ⟨hfst.subset items, hsec.subset items⟩
  · intro item items kept hkept
    rcases List.mem_append.mp hkept with hkept | hkept
    · exact (hfst.forgets item items kept hkept).imp id (List.mem_append_left _)
    · exact (hsec.forgets item items kept hkept).imp id (List.mem_append_right _)
  · intro items rest hnd hrest hkept
    obtain ⟨hleft, hright⟩ := List.append_subset.mp hkept
    simp only [hfst.stable items rest hnd hrest hleft, hsec.stable items rest hnd hrest hright]

variable [DecidableEq κ] (key : α → κ)

/-- The values of a dictionary after `setdefault(key(item), item)` for each item,
where the keys in `seen` are there already. -/
def firsts (seen : List κ) : List α → List α
  | [] => []
  | item :: rest =>
    if key item ∈ seen then firsts seen rest else item :: firsts (key item :: seen) rest

variable {key}

theorem firsts_subset (seen : List κ) (items : List α) : firsts key seen items ⊆ items := by
  induction items generalizing seen with
  | nil => exact List.Subset.refl _
  | cons item rest ih =>
    rw [firsts]
    split
    · exact List.subset_cons_of_subset _ (ih seen)
    · exact List.cons_subset_cons _ (ih _)

theorem firsts_congr {seen os : List κ} (h : ∀ k, k ∈ seen ↔ k ∈ os) (items : List α) :
    firsts key seen items = firsts key os items := by
  induction items generalizing seen os with
  | nil => rfl
  | cons item rest ih =>
    have hrest : firsts key (key item :: seen) rest = firsts key (key item :: os) rest :=
      ih fun k => by rw [List.mem_cons, List.mem_cons, h]
    simp only [firsts, h, ih h, hrest]

/-- A key less may push the last one out, and lets no new one in. -/
theorem take_firsts_seen {seen more : List κ} {new : κ}
    (hmore : ∀ k, k ∈ more ↔ k = new ∨ k ∈ seen) (items : List α) (count : Nat) :
    (firsts key more items).take count ⊆ (firsts key seen items).take (count + 1) := by
  induction items generalizing seen more count with
  | nil => simp [firsts]
  | cons item rest ih =>
    rw [firsts, firsts]
    by_cases hseen : key item ∈ seen
    · rw [if_pos hseen, if_pos ((hmore _).mpr (Or.inr hseen))]
      exact ih hmore count
    · rw [if_neg hseen, List.take_succ_cons]
      by_cases hnew : key item = new
      · have hsame : firsts key more rest = firsts key (key item :: seen) rest :=
          firsts_congr (fun k => by rw [hmore, hnew, List.mem_cons]) rest
        rw [if_pos ((hmore _).mpr (Or.inl hnew)), hsame]
        exact List.subset_cons_self _ _
      · have hout : key item ∉ more := fun h => ((hmore _).mp h).elim hnew hseen
        rw [if_neg hout]
        cases count with
        | zero => exact List.nil_subset _
        | succ count =>
          rw [List.take_succ_cons]
          refine List.cons_subset_cons _ (ih (fun k => ?_) count)
          simp only [List.mem_cons, hmore]
          tauto

theorem firsts_stable {items rest : List α} {seen : List κ} {count : Nat} (hnd : items.Nodup)
    (hrest : rest.Sublist items) (hkept : (firsts key seen items).take count ⊆ rest) :
    (firsts key seen rest).take count = (firsts key seen items).take count := by
  induction hrest generalizing seen count with
  | slnil => rfl
  | @cons rest items item hrest ih =>
    obtain ⟨hitem, hnd⟩ := List.nodup_cons.mp hnd
    rw [firsts] at hkept ⊢
    split at hkept
    · rename_i hseen
      rw [if_pos hseen]
      exact ih hnd hkept
    · rename_i hseen
      cases count with
      | zero => rfl
      | succ count => exact absurd (hrest.subset (hkept (List.mem_cons_self ..))) hitem
  | @cons_cons rest items item hrest ih =>
    obtain ⟨hitem, hnd⟩ := List.nodup_cons.mp hnd
    have htail : ∀ seen count, (firsts key seen items).take count ⊆ item :: rest →
        (firsts key seen items).take count ⊆ rest := by
      intro seen count hsub kept hmem
      refine (List.mem_cons.mp (hsub hmem)).resolve_left ?_
      rintro rfl
      exact hitem (firsts_subset seen items (List.mem_of_mem_take hmem))
    rw [firsts, firsts]
    rw [firsts] at hkept
    split
    · rename_i hseen
      rw [if_pos hseen] at hkept
      exact ih hnd (htail _ _ hkept)
    · rename_i hseen
      rw [if_neg hseen] at hkept
      cases count with
      | zero => rfl
      | succ count =>
        rw [List.take_succ_cons, List.take_succ_cons] at *
        rw [ih hnd (htail _ _ fun kept hmem => hkept (List.mem_cons_of_mem _ hmem))]

/-- The newest items of the newest keys. -/
theorem tier_firsts (key : α → κ) (count : Nat) :
    Tier fun items => (firsts key [] items).take count := by
  constructor
  · exact fun items => List.Subset.trans (List.take_subset _ _) (firsts_subset [] items)
  · intro item items kept hkept
    cases count with
    | zero => cases hkept
    | succ count =>
      simp only [firsts, List.not_mem_nil, if_false, List.take_succ_cons] at hkept
      have hkeys : ∀ k, k ∈ [key item] ↔ k = key item ∨ k ∈ [] := by simp
      exact (List.mem_cons.mp hkept).imp id fun hkept => take_firsts_seen hkeys items count hkept
  · exact fun items rest hnd hrest hkept => firsts_stable hnd hrest hkept

theorem firsts_of_nodup [DecidableEq α] {seen items : List α} (hnd : items.Nodup)
    (hseen : ∀ item ∈ items, item ∉ seen) : firsts id seen items = items := by
  induction items generalizing seen with
  | nil => rfl
  | cons item rest ih =>
    obtain ⟨hitem, hnd⟩ := List.nodup_cons.mp hnd
    have hnew : id item ∉ seen := hseen item (List.mem_cons_self ..)
    rw [firsts, if_neg hnew, ih hnd]
    intro other ho hmem
    rcases List.mem_cons.mp hmem with rfl | hmem
    · exact hitem ho
    · exact hseen other (List.mem_cons_of_mem _ ho) hmem

/-- The newest items. -/
theorem tier_take (count : Nat) : Tier fun items : List α => items.take count := by
  classical
  constructor
  · exact fun items => List.take_subset _ _
  · intro item items kept hkept
    cases count with
    | zero => cases hkept
    | succ count =>
      refine (List.mem_cons.mp hkept).imp id fun hkept => ?_
      exact (List.take_subset_take_left items (Nat.le_succ count)) hkept
  · intro items rest hnd hrest hkept
    have hall : ∀ {others : List α}, others.Nodup → firsts id [] others = others :=
      fun hos => firsts_of_nodup hos fun _ _ => List.not_mem_nil
    rw [← hall hnd] at hkept
    have hsame := firsts_stable hnd hrest hkept
    rwa [hall hnd, hall (hnd.sublist hrest)] at hsame

end TamForge.ProofSupport
