import TamForge.Models.Json
import TamForge.Models.Sha256
import Mathlib.Order.Basic
import Mathlib.Data.List.Forall2
import Mathlib.Data.String.Basic

/-!
# Canonical JSON

`json.dumps(value, ensure_ascii=False, sort_keys=True, separators=(",", ":"))`,
of which the configuration and the roadmaps take their digests.  Two values are
the same document when they differ only in the order of their keys, which is all
that storing a value as JSON may change.
-/

namespace TamForge.Models.Json

/-! ## The same document -/

/-- Equal as Python compares dictionaries: the order of their keys is no part of
them. -/
def Same (a b : Json) : Prop := a.canonical = b.canonical

instance (a b : Json) : Decidable (Same a b) := inferInstanceAs (Decidable (_ = _))

theorem Same.refl (a : Json) : Same a a := rfl

variable {a b : Json}

theorem same_null : Same null a ↔ a = null := by
  cases a <;> simp [Same, canonical]

/-! ## Text -/

/-- One character as `json.dumps` writes it with `ensure_ascii=False`. -/
def escapePlain (c : Char) : List Char :=
  if c.toNat < 32 ∨ c = '"' ∨ c = '\\' then escapeChar c else [c]

def plainString (text : String) : List Char :=
  '"' :: (text.toList.flatMap escapePlain ++ ['"'])

mutual

/-- `json.dumps(value, ensure_ascii=False, separators=(",", ":"))` -/
def plain : Json → List Char
  | null => ['n', 'u', 'l', 'l']
  | bool value => if value then ['t', 'r', 'u', 'e'] else ['f', 'a', 'l', 's', 'e']
  | number text => text.toList
  | string value => plainString value
  | array items => '[' :: (plainItems items ++ [']'])
  | object fields => '\x7b' :: (plainFields fields ++ ['\x7d'])

def plainItems : List Json → List Char
  | [] => []
  | item :: [] => plain item
  | item :: rest => plain item ++ ',' :: plainItems rest

def plainFields : List (String × Json) → List Char
  | [] => []
  | (key, value) :: [] => plainString key ++ ':' :: plain value
  | (key, value) :: rest => plainString key ++ ':' :: plain value ++ ',' :: plainFields rest

end

def canonicalPlain (value : Json) : Bytes :=
  (String.ofList (plain value.canonical)).toUTF8.toList

/-! ## Items and fields -/

theorem Same.symm (h : Same a b) : Same b a := Eq.symm h

theorem Same.canonicalPlain (h : Same a b) : a.canonicalPlain = b.canonicalPlain := by
  rw [Json.canonicalPlain, Json.canonicalPlain, show a.canonical = b.canonical from h]

theorem canonicalItems_eq_map (items : List Json) :
    canonicalItems items = items.map canonical := by
  induction items with
  | nil => rfl
  | cons item rest ih => rw [canonicalItems, ih, List.map_cons]

theorem same_bool {value : Bool} : Same (bool value) a ↔ a = bool value := by
  cases a <;> simp [Same, canonical, eq_comm]

theorem same_number {text : String} : Same (number text) a ↔ a = number text := by
  cases a <;> simp [Same, canonical, eq_comm]

theorem same_string {value : String} : Same (string value) a ↔ a = string value := by
  cases a <;> simp [Same, canonical, eq_comm]

/-- The same array has the same items, one for one. -/
theorem same_array {items : List Json} :
    Same (array items) a ↔ ∃ others, a = array others ∧ List.Forall₂ Same items others := by
  have hitems : ∀ others : List Json, List.Forall₂ Same items others ↔
      items.map canonical = others.map canonical := by
    intro others
    rw [← List.forall₂_eq_eq_eq, List.forall₂_map_left_iff, List.forall₂_map_right_iff]
    rfl
  cases a with
  | array others =>
    simp [Same, canonical, canonicalItems_eq_map, hitems]
  | null => simp [Same, canonical]
  | bool _ => simp [Same, canonical]
  | number _ => simp [Same, canonical]
  | string _ => simp [Same, canonical]
  | object _ => simp [Same, canonical]

/-! ## Sorted fields -/

def SortedFields (fields : List (String × Json)) : Prop :=
  fields.Pairwise fun first second => first.1 < second.1

variable {fields : List (String × Json)}

theorem mem_insertField {field other : String × Json} (h : other ∈ insertField field fields) :
    other = field ∨ other ∈ fields := by
  induction fields with
  | nil => exact Or.inl (List.mem_singleton.mp h)
  | cons first rest ih =>
    rw [insertField] at h
    split at h
    · exact List.mem_cons.mp h
    · split at h
      · rcases List.mem_cons.mp h with rfl | hrest
        · exact Or.inl rfl
        · exact Or.inr (List.mem_cons_of_mem _ hrest)
      · rcases List.mem_cons.mp h with rfl | hrest
        · exact Or.inr (List.mem_cons_self ..)
        · exact (ih hrest).imp id (List.mem_cons_of_mem _)

theorem SortedFields.insert (h : SortedFields fields) (field : String × Json) :
    SortedFields (insertField field fields) := by
  induction fields with
  | nil => exact List.pairwise_singleton _ _
  | cons first rest ih =>
    obtain ⟨hfst, hrest⟩ := List.pairwise_cons.mp h
    rw [insertField]
    split
    · rename_i hlt
      refine List.pairwise_cons.mpr ⟨?_, h⟩
      intro other ho
      rcases List.mem_cons.mp ho with rfl | hmem
      · exact hlt
      · exact lt_trans hlt (hfst other hmem)
    · rename_i hnlt
      split
      · rename_i hsame
        exact List.pairwise_cons.mpr ⟨fun other ho => hsame ▸ hfst other ho, hrest⟩
      · rename_i hne
        refine List.pairwise_cons.mpr ⟨?_, ih hrest⟩
        intro other ho
        rcases mem_insertField ho with rfl | hmem
        · exact lt_of_le_of_ne (not_lt.mp hnlt) (Ne.symm hne)
        · exact hfst other hmem

variable {sorted : List (String × Json)}

theorem SortedFields.canonicalFields (h : SortedFields sorted) :
    SortedFields (canonicalFields fields sorted) := by
  induction fields generalizing sorted with
  | nil => exact h
  | cons field rest ih =>
    rw [Json.canonicalFields]
    exact ih (h.insert _)

/-! ## Looking a key up -/

theorem item?_cons (field : String × Json) (fields : List (String × Json)) (key : String) :
    item? (field :: fields) key =
      (item? fields key).or (if field.1 = key then some field.2 else none) := by
  rw [item?, item?, List.reverse_cons, List.find?_append, Option.map_or]
  by_cases hkey : field.1 = key <;> simp [hkey]

variable {key : String}

theorem item?_eq_none (h : ∀ field ∈ fields, field.1 ≠ key) : item? fields key = none := by
  rw [item?, Option.map_eq_none_iff, List.find?_eq_none]
  intro field hfield
  simpa using h field (List.mem_reverse.mp hfield)

theorem item?_insertField (h : SortedFields fields) (field : String × Json) (key : String) :
    item? (insertField field fields) key =
      if field.1 = key then some field.2 else item? fields key := by
  induction fields with
  | nil => simp [insertField, item?]
  | cons first rest ih =>
    obtain ⟨hfst, hrest⟩ := List.pairwise_cons.mp h
    rw [insertField]
    split
    · rename_i hlt
      rw [item?_cons field]
      by_cases hkey : field.1 = key
      · have hnone : item? (first :: rest) key = none := by
          apply item?_eq_none
          intro other ho hsame
          have hpast : field.1 < other.1 := by
            rcases List.mem_cons.mp ho with rfl | hmem
            · exact hlt
            · exact lt_trans hlt (hfst other hmem)
          rw [hkey, hsame] at hpast
          exact lt_irrefl _ hpast
        rw [hnone, if_pos hkey, Option.none_or]
      · rw [if_neg hkey, if_neg hkey, Option.or_none]
    · split
      · rename_i hsame
        rw [item?_cons field, item?_cons first]
        by_cases hkey : field.1 = key
        · have hnone : item? rest key = none := by
            apply item?_eq_none
            intro other ho heq
            have hlt := hfst other ho
            rw [← hsame, hkey, heq] at hlt
            exact lt_irrefl _ hlt
          rw [hnone, if_pos hkey, if_pos hkey, Option.none_or]
        · rw [if_neg hkey, if_neg hkey, ← hsame, if_neg hkey]
      · rw [item?_cons first, ih hrest, item?_cons first]
        by_cases hkey : field.1 = key
        · rw [if_pos hkey, if_pos hkey, Option.some_or]
        · rw [if_neg hkey, if_neg hkey]

theorem item?_canonicalFields (fields : List (String × Json)) (h : SortedFields sorted)
    (key : String) : item? (canonicalFields fields sorted) key =
      ((item? fields key).map canonical).or (item? sorted key) := by
  induction fields generalizing sorted with
  | nil => simp [canonicalFields, item?]
  | cons field rest ih =>
    rw [canonicalFields, ih (h.insert _), item?_insertField h, item?_cons, Option.map_or,
      Option.or_assoc]
    congr 1
    split <;> simp

/-- The same dictionary has the same value under every key. -/
theorem Same.object (h : Same (object fields) a) :
    ∃ others, a = Json.object others ∧
      ∀ key, (item? fields key).map canonical = (item? others key).map canonical := by
  cases a with
  | object others =>
    refine ⟨others, rfl, ?_⟩
    intro key
    have hfld : canonicalFields fields [] = canonicalFields others [] := Json.object.inj h
    have hleft := item?_canonicalFields fields List.Pairwise.nil key
    have hright := item?_canonicalFields others List.Pairwise.nil key
    rw [← hfld, hleft] at hright
    simpa [item?] using hright
  | null => simp [Same, canonical] at h
  | bool _ => simp [Same, canonical] at h
  | number _ => simp [Same, canonical] at h
  | string _ => simp [Same, canonical] at h
  | array _ => simp [Same, canonical] at h

variable {others : List (String × Json)}

/-- What stands under a key of one stands under it in the other. -/
theorem exists_item?_of_same {value : Json}
    (h : ∀ key, (item? fields key).map canonical = (item? others key).map canonical)
    (hval : item? fields key = some value) :
    ∃ other, item? others key = some other ∧ Same value other := by
  have hkey := h key
  rw [hval, Option.map_some] at hkey
  obtain ⟨other, ho, hsame⟩ := Option.map_eq_some_iff.mp hkey.symm
  exact ⟨other, ho, hsame.symm⟩

/-- Fields that differ only inside their values. -/
theorem same_fields
    (h : List.Forall₂ (fun field other => field.1 = other.1 ∧ Same field.2 other.2) fields others) :
    Same (object fields) (object others) := by
  have hfld : ∀ sorted, canonicalFields fields sorted = canonicalFields others sorted := by
    induction h with
    | nil => exact fun _ => rfl
    | @cons field other _ _ hfield _ ih =>
      intro sorted
      rw [canonicalFields, canonicalFields, hfield.1, show field.2.canonical = other.2.canonical
        from hfield.2, ih]
  rw [Same, canonical, canonical, hfld]

end TamForge.Models.Json
