import Mathlib.Data.List.Dedup
import Mathlib.Data.List.Nodup
import Mathlib.Data.List.Sort
import Mathlib.Order.Basic

/-!
# Dictionaries and sorted keys

A dictionary is the list of its items in insertion order, with one item for each
key.  `ofItems` is a comprehension, in which the last value of a key wins, and
`sortedUnion` lists the keys of two dictionaries in their order.
-/

namespace TamForge.ProofSupport.Dict

variable {κ β : Type} [DecidableEq κ] {items others : List (κ × β)} {key other : κ}
  {value : β}

/-- `dictionary.get(key)` -/
def get? (items : List (κ × β)) (key : κ) : Option β :=
  (items.find? fun item => item.1 = key).map Prod.snd

/-- `dictionary[key] = value` -/
def set (items : List (κ × β)) (key : κ) (value : β) : List (κ × β) :=
  if key ∈ items.map Prod.fst then
    items.map fun item => if item.1 = key then (key, value) else item
  else
    items ++ [(key, value)]

/-- `{key: value for key, value in items}` -/
def ofItems (items : List (κ × β)) : List (κ × β) :=
  items.foldl (fun dictionary item => set dictionary item.1 item.2) []

/-! ## Looking up -/

theorem get?_cons (item : κ × β) (rest : List (κ × β)) (key : κ) :
    get? (item :: rest) key = if item.1 = key then some item.2 else get? rest key := by
  by_cases hkey : item.1 = key <;> simp [get?, hkey]

theorem get?_append : get? (items ++ others) key = (get? items key).or (get? others key) := by
  rw [get?, get?, get?, List.find?_append, Option.map_or]

theorem get?_isSome : (get? items key).isSome = true ↔ key ∈ items.map Prod.fst := by
  rw [get?, Option.isSome_map, List.find?_isSome]
  simp only [decide_eq_true_eq, List.mem_map]

theorem get?_eq_none : get? items key = none ↔ key ∉ items.map Prod.fst := by
  rw [← get?_isSome, Option.not_isSome_iff_eq_none]

theorem mem_of_get? (h : get? items key = some value) : (key, value) ∈ items := by
  obtain ⟨item, hfind, hval⟩ := Option.map_eq_some_iff.mp h
  have hkey : item.1 = key := by simpa using List.find?_some hfind
  have hmem := List.mem_of_find?_eq_some hfind
  rwa [← hkey, ← hval]

theorem get?_eq_some (hnd : (items.map Prod.fst).Nodup) :
    get? items key = some value ↔ (key, value) ∈ items := by
  constructor
  · exact mem_of_get?
  · intro hmem
    have hsome := get?_isSome.mpr (List.mem_map_of_mem (f := Prod.fst) hmem)
    obtain ⟨found, hf⟩ := Option.isSome_iff_exists.mp hsome
    have hsame := List.inj_on_of_nodup_map hnd (mem_of_get? hf) hmem rfl
    rw [hf, (Prod.mk.inj hsame).2]

theorem get?_reverse (h : (items.map Prod.fst).Nodup) :
    get? items.reverse key = get? items key := by
  have hreverse : (items.reverse.map Prod.fst).Nodup := by
    rw [List.map_reverse, List.nodup_reverse]
    exact h
  apply Option.ext
  intro value
  rw [get?_eq_some hreverse, get?_eq_some h, List.mem_reverse]

/-! ## Setting -/

theorem keys_set : (set items key value).map Prod.fst =
    if key ∈ items.map Prod.fst then items.map Prod.fst else items.map Prod.fst ++ [key] := by
  unfold set
  split
  · rw [List.map_map]
    apply List.map_congr_left
    intro item _
    show (if item.1 = key then (key, value) else item).1 = item.1
    split
    · rename_i hsame
      exact hsame.symm
    · rfl
  · rw [List.map_append, List.map_singleton]

theorem nodup_set (h : (items.map Prod.fst).Nodup) :
    ((set items key value).map Prod.fst).Nodup := by
  rw [keys_set]
  split
  · exact h
  · rename_i hnew
    exact List.nodup_append.mpr ⟨h, List.nodup_singleton _, by
      rintro first hfst second hsec rfl
      exact hnew (List.mem_singleton.mp hsec ▸ hfst)⟩

theorem set_of_not_mem (h : key ∉ items.map Prod.fst) :
    set items key value = items ++ [(key, value)] := if_neg h

theorem get?_map_ne (hne : key ≠ other) :
    get? (items.map fun item => if item.1 = key then (key, value) else item) other =
      get? items other := by
  induction items with
  | nil => rfl
  | cons item rest ih =>
    rw [List.map_cons, get?_cons, get?_cons, ih]
    by_cases hitem : item.1 = key
    · rw [if_pos hitem, if_neg hne, if_neg (hitem ▸ hne)]
    · rw [if_neg hitem]

theorem get?_map_self (hmem : key ∈ items.map Prod.fst) :
    get? (items.map fun item => if item.1 = key then (key, value) else item) key = some value := by
  induction items with
  | nil => cases hmem
  | cons item rest ih =>
    rw [List.map_cons, get?_cons]
    by_cases hitem : item.1 = key
    · rw [if_pos hitem, if_pos rfl]
    · rw [if_neg hitem, if_neg hitem]
      exact ih ((List.mem_cons.mp hmem).resolve_left (Ne.symm hitem))

theorem get?_set : get? (set items key value) other =
    if key = other then some value else get? items other := by
  unfold set
  split
  · rename_i hmem
    by_cases ho : key = other
    · subst ho
      rw [get?_map_self hmem, if_pos rfl]
    · rw [get?_map_ne ho, if_neg ho]
  · rename_i hnew
    rw [get?_append, get?_cons]
    by_cases ho : key = other
    · subst ho
      rw [get?_eq_none.mpr hnew, if_pos rfl, if_pos rfl, Option.none_or]
    · rw [if_neg ho, if_neg ho]
      simp [get?]

theorem get?_foldl_set {vals : κ → β} {keys : List κ} :
    get? (keys.foldl (fun dictionary key => set dictionary key (vals key)) items) other =
      if other ∈ keys then some (vals other) else get? items other := by
  induction keys generalizing items with
  | nil => simp
  | cons key rest ih =>
    rw [List.foldl_cons, ih, get?_set]
    by_cases hrest : other ∈ rest
    · rw [if_pos hrest, if_pos (List.mem_cons_of_mem _ hrest)]
    · rw [if_neg hrest]
      by_cases hkey : key = other
      · subst hkey
        rw [if_pos rfl, if_pos (List.mem_cons_self ..)]
      · rw [if_neg hkey, if_neg]
        intro hmem
        rcases List.mem_cons.mp hmem with hsame | hlat
        · exact hkey hsame.symm
        · exact hrest hlat

theorem keys_foldl_set {vals : κ → β} {keys : List κ}
    (h : ∀ key ∈ keys, key ∈ items.map Prod.fst) :
    (keys.foldl (fun dictionary key => set dictionary key (vals key)) items).map Prod.fst =
      items.map Prod.fst := by
  induction keys generalizing items with
  | nil => rfl
  | cons key rest ih =>
    have hkeys : (set items key (vals key)).map Prod.fst = items.map Prod.fst := by
      rw [keys_set, if_pos (h key (List.mem_cons_self ..))]
    rw [List.foldl_cons, ih, hkeys]
    rw [hkeys]
    exact fun other hmem => h other (List.mem_cons_of_mem _ hmem)

theorem ofItems_eq_self (h : (items.map Prod.fst).Nodup) : ofItems items = items := by
  have hfold : ∀ before rest : List (κ × β), ((before ++ rest).map Prod.fst).Nodup →
      rest.foldl (fun dictionary item => set dictionary item.1 item.2) before = before ++ rest := by
    intro before rest
    induction rest generalizing before with
    | nil =>
      intro _
      rw [List.append_nil, List.foldl_nil]
    | cons item rest ih =>
      intro hnd
      have hnew : item.1 ∉ before.map Prod.fst := by
        rw [List.map_append, List.map_cons] at hnd
        intro hmem
        exact (List.nodup_append.mp hnd).2.2 _ hmem _ (List.mem_cons_self ..) rfl
      rw [List.foldl_cons, set_of_not_mem hnew, ih]
      · rw [List.append_assoc, List.singleton_append]
      · rwa [List.append_assoc, List.singleton_append]
  exact hfold [] items h

/-! ## Comparing -/

theorem get?_ofItems : get? (ofItems items) key = get? items.reverse key := by
  have hfold : ∀ before : List (κ × β),
      get? (items.foldl (fun dictionary item => set dictionary item.1 item.2) before) key =
        (get? items.reverse key).or (get? before key) := by
    induction items with
    | nil => exact fun _ => rfl
    | cons item rest ih =>
      intro before
      rw [List.foldl_cons, ih, get?_set, List.reverse_cons, get?_append, get?_cons]
      by_cases hkey : item.1 = key
      · rw [if_pos hkey, if_pos hkey, Option.or_assoc, Option.some_or]
      · rw [if_neg hkey, if_neg hkey, Option.or_assoc]
        rfl
  rw [ofItems, hfold]
  exact Option.or_none

theorem eq_of_get? (hkeys : items.map Prod.fst = others.map Prod.fst)
    (hnd : (items.map Prod.fst).Nodup) (h : ∀ key, get? items key = get? others key) :
    items = others := by
  induction items generalizing others with
  | nil => exact (List.map_eq_nil_iff.mp hkeys.symm).symm
  | cons item rest ih =>
    cases others with
    | nil => cases hkeys
    | cons other rest' =>
      rw [List.map_cons, List.map_cons, List.cons.injEq] at hkeys
      rw [List.map_cons, List.nodup_cons] at hnd
      have hfst := h item.1
      rw [get?_cons, get?_cons, if_pos rfl, if_pos hkeys.1.symm] at hfst
      have hrest : rest = rest' := by
        apply ih hkeys.2 hnd.2
        intro key
        by_cases hkey : item.1 = key
        · subst hkey
          rw [get?_eq_none.mpr hnd.1, get?_eq_none.mpr (hkeys.2 ▸ hnd.1)]
        · have hrestKey := h key
          rwa [get?_cons, get?_cons, if_neg hkey, if_neg (hkeys.1 ▸ hkey)] at hrestKey
      rw [hrest, Prod.ext hkeys.1 (Option.some.inj hfst)]

theorem perm_iff_get? (hitems : (items.map Prod.fst).Nodup)
    (hos : (others.map Prod.fst).Nodup) :
    items.Perm others ↔ ∀ key, get? items key = get? others key := by
  rw [List.perm_ext_iff_of_nodup hitems.of_map hos.of_map]
  constructor
  · intro h key
    apply Option.ext
    intro value
    rw [get?_eq_some hitems, get?_eq_some hos, h]
  · rintro h ⟨key, value⟩
    rw [← get?_eq_some hitems, ← get?_eq_some hos, h]

theorem perm_filterMap_get? {keys : List κ} (hkeys : keys.Nodup)
    (hitems : (items.map Prod.fst).Nodup) (hall : ∀ key ∈ items.map Prod.fst, key ∈ keys) :
    (keys.filterMap fun key => (get? items key).map fun value => (key, value)).Perm items := by
  have hnd :
      (keys.filterMap fun key => (get? items key).map fun value => (key, value)).Nodup := by
    apply hkeys.filterMap
    intro first second item hfst hsec
    obtain ⟨value, -, rfl⟩ := Option.map_eq_some_iff.mp hfst
    obtain ⟨value', -, h⟩ := Option.map_eq_some_iff.mp hsec
    exact (Prod.mk.inj h).1.symm
  rw [List.perm_ext_iff_of_nodup hnd hitems.of_map]
  rintro ⟨key, value⟩
  rw [List.mem_filterMap, ← get?_eq_some hitems]
  constructor
  · rintro ⟨other, -, ho⟩
    obtain ⟨found, hf, h⟩ := Option.map_eq_some_iff.mp ho
    cases h
    exact hf
  · intro hval
    exact ⟨key, hall key (List.mem_map_of_mem (f := Prod.fst) (mem_of_get? hval)), by
      rw [hval, Option.map_some]⟩

/-! ## Sorted keys -/

section Sorted

variable [LinearOrder κ]

/-- `sorted(set(keys))` -/
def sortedSet (keys : List κ) : List κ := keys.dedup.insertionSort (· ≤ ·)

theorem mem_sortedSet {keys : List κ} : key ∈ sortedSet keys ↔ key ∈ keys := by
  rw [sortedSet, (List.perm_insertionSort _ _).mem_iff, List.mem_dedup]

theorem nodup_sortedSet (keys : List κ) : (sortedSet keys).Nodup :=
  (List.perm_insertionSort _ _).nodup_iff.mpr (List.nodup_dedup keys)

end Sorted

end TamForge.ProofSupport.Dict
