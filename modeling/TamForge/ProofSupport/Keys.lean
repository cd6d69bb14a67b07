import Mathlib.Algebra.Order.Ring.Int
import Mathlib.Data.List.Basic

/-!
# Keys made of separated parts

A key that joins its parts with a separator determines them as long as no part
contains the separator, and decimal numerals determine their number.
-/

namespace TamForge.ProofSupport.Keys

/-- The part before the first separator is determined. -/
theorem append_sep_inj {α : Type} {sep : α} {a a' b b' : List α} (ha : sep ∉ a)
    (ha' : sep ∉ a') (h : a ++ sep :: b = a' ++ sep :: b') : a = a' ∧ b = b' := by
  induction a generalizing a' with
  | nil =>
    cases a' with
    | nil => exact ⟨rfl, (List.cons.inj h).2⟩
    | cons first rest =>
      have hfst : sep = first := (List.cons.inj h).1
      exact absurd (by simp [hfst]) ha'
  | cons first rest ih =>
    cases a' with
    | nil =>
      have hfst : first = sep := (List.cons.inj h).1
      exact absurd (by simp [hfst]) ha
    | cons first' rest' =>
      obtain ⟨hfst, hrest⟩ := List.cons.inj h
      obtain ⟨hequal, htail⟩ := ih (fun hmem => ha (by simp [hmem]))
        (fun hmem => ha' (by simp [hmem])) hrest
      exact ⟨by rw [hfst, hequal], htail⟩

theorem sep_not_mem_of_mem_splitOn {α : Type} [BEq α] [LawfulBEq α] {sep : α} {text part : List α}
    (h : part ∈ text.splitOn sep) : sep ∉ part := by
  induction text generalizing part with
  | nil =>
    rw [List.splitOn_nil, List.mem_singleton] at h
    rw [h]
    exact List.not_mem_nil
  | cons c text ih =>
    rw [List.splitOn_cons_eq_if_modifyHead] at h
    split at h
    · rcases List.mem_cons.mp h with rfl | hrest
      · exact List.not_mem_nil
      · exact ih hrest
    · rename_i hc
      obtain ⟨first, parts, hparts⟩ :=
        List.exists_cons_of_ne_nil (List.splitOn_ne_nil sep text)
      rw [hparts, List.modifyHead_cons] at h
      rcases List.mem_cons.mp h with rfl | hrest
      · have hfst : sep ∉ first := ih (hparts ▸ List.mem_cons_self ..)
        rw [List.mem_cons, not_or]
        exact ⟨fun heq => hc (by rw [heq, beq_self_eq_true]), hfst⟩
      · exact ih (hparts ▸ List.mem_cons_of_mem _ hrest)

/-- Joining adds nothing but separators. -/
theorem mem_of_mem_part {α : Type} {sep c : α} {parts : List (List α)} {part : List α}
    (hpart : part ∈ parts) (hc : c ∈ part) : c ∈ [sep].intercalate parts := by
  induction parts with
  | nil => cases hpart
  | cons first rest ih =>
    by_cases hrest : rest = []
    · subst hrest
      rw [List.mem_singleton.mp hpart] at hc
      simpa using hc
    · rw [List.intercalate_cons_of_ne_nil hrest, List.mem_append, List.mem_append]
      rcases List.mem_cons.mp hpart with rfl | hlat
      · exact Or.inl (Or.inl hc)
      · exact Or.inr (ih hlat)

theorem mem_part_of_mem {α : Type} {sep c : α} {parts : List (List α)}
    (hc : c ∈ [sep].intercalate parts) : c = sep ∨ ∃ part ∈ parts, c ∈ part := by
  induction parts with
  | nil => simp at hc
  | cons first rest ih =>
    by_cases hrest : rest = []
    · subst hrest
      exact Or.inr ⟨first, by simp, by simpa using hc⟩
    · rw [List.intercalate_cons_of_ne_nil hrest, List.mem_append, List.mem_append,
        List.mem_singleton] at hc
      rcases hc with (hfst | hsep) | hlat
      · exact Or.inr ⟨first, by simp, hfst⟩
      · exact Or.inl hsep
      · rcases ih hlat with hsep | ⟨part, hpart, hin⟩
        · exact Or.inl hsep
        · exact Or.inr ⟨part, by simp [hpart], hin⟩

/-- A function that a separator parts works on the parts. -/
theorem map_intercalate {α : Type} {sep : α} {f : List α → List α}
    (hf : ∀ left right, f (left ++ sep :: right) = f left ++ sep :: f right)
    {parts : List (List α)} (hparts : parts ≠ []) :
    f ([sep].intercalate parts) = [sep].intercalate (parts.map f) := by
  induction parts with
  | nil => exact absurd rfl hparts
  | cons first rest ih =>
    by_cases hrest : rest = []
    · subst hrest
      simp
    · have hmap : rest.map f ≠ [] := by simpa using hrest
      rw [List.intercalate_cons_of_ne_nil hrest, List.map_cons,
        List.intercalate_cons_of_ne_nil hmap, List.append_assoc, List.singleton_append, hf,
        ih hrest, List.append_assoc, List.singleton_append]

theorem not_mem_toString {c : Char} (hc : c.isDigit = false) (n : Nat) :
    c ∉ (toString n).toList := by
  intro hmem
  have hdigits : (toString n).toList = Nat.toDigits 10 n := Nat.toList_repr
  rw [hdigits] at hmem
  have hdigit := Nat.isDigit_of_mem_toDigits (by decide) (by decide) hmem
  rw [hc] at hdigit
  cases hdigit

theorem all_toString {p : Char → Bool} (hp : ∀ c, c.isDigit = true → p c = true) (n : Nat) :
    (toString n).toList.all p = true := by
  rw [List.all_eq_true]
  intro c hc
  have hdigits : (toString n).toList = Nat.toDigits 10 n := Nat.toList_repr
  rw [hdigits] at hc
  exact hp c (Nat.isDigit_of_mem_toDigits (by decide) (by decide) hc)

theorem length_toString_le {n k : Nat} (hk : 0 < k) (hn : n < 10 ^ k) :
    (toString n).length ≤ k :=
  (Nat.length_repr_le_iff hk).mpr hn

theorem toString_inj {n m : Nat} (h : (toString n).toList = (toString m).toList) : n = m := by
  have hdigits : Nat.toDigits 10 n = Nat.toDigits 10 m := by
    rw [← Nat.toList_repr, ← Nat.toList_repr]
    exact h
  have hval := congrArg (fun digits => Nat.ofDigitChars 10 digits 0) hdigits
  simpa only [Nat.ofDigitChars_ten_toDigits] using hval

end TamForge.ProofSupport.Keys
