import TamForge.ProofSupport.Table

/-!
# Tables with an identity column

A serial table hands out its own keys: the row inserted next is built from
`next`.  Rows are appended, or
replaced under the identity they have.
-/

namespace TamForge.ProofSupport

variable {α : Type}

structure Serial (α : Type) where
  rows : List α
  next : Nat

namespace Serial

def empty : Serial α where
  rows := []
  next := 1

def insert (table : Serial α) (row : Nat → α) : α × Serial α :=
  (row table.next, { rows := table.rows ++ [row table.next], next := table.next + 1 })

def insertAll (table : Serial α) : List (Nat → α) → List α × Serial α
  | [] => ([], table)
  | row :: rest =>
    let (first, table) := table.insert row
    let (others, table) := table.insertAll rest
    (first :: others, table)

def replace (table : Serial α) (key : α → Nat) (row : α) : Serial α :=
  { table with rows := Table.modify key table.rows (key row) fun _ => row }

/-- The second of two writes under one identity is the one that stays. -/
theorem replace_replace (table : Serial α) {key : α → Nat} {row row' : α}
    (h : key row' = key row) :
    (table.replace key row).replace key row' = table.replace key row' := by
  unfold replace Table.modify
  rw [List.map_map]
  congr 1
  apply List.map_congr_left
  intro other _
  simp only [Function.comp_apply, h]
  by_cases hsame : key other = key row
  · simp [hsame]
  · simp [hsame]

theorem mem_replace {table : Serial α} {key : α → Nat} {row other : α}
    (h : other ∈ (table.replace key row).rows) :
    other = row ∨ (other ∈ table.rows ∧ key other ≠ key row) := by
  obtain ⟨old, hold, heq⟩ := List.mem_map.mp h
  by_cases hsame : key old = key row
  · rw [if_pos hsame] at heq
    exact Or.inl heq.symm
  · rw [if_neg hsame] at heq
    exact Or.inr ⟨heq ▸ hold, heq ▸ hsame⟩

theorem mem_replace_of_ne {table : Serial α} {key : α → Nat} {row other : α}
    (hmem : other ∈ table.rows) (hne : key other ≠ key row) :
    other ∈ (table.replace key row).rows :=
  List.mem_map.mpr ⟨other, hmem, if_neg hne⟩

theorem mem_replace_self {table : Serial α} {key : α → Nat} {row old : α}
    (hold : old ∈ table.rows) (hkey : key row = key old) :
    row ∈ (table.replace key row).rows :=
  List.mem_map.mpr ⟨old, hold, if_pos hkey.symm⟩

@[simp] theorem insert_rows (table : Serial α) (row : Nat → α) :
    (table.insert row).2.rows = table.rows ++ [(table.insert row).1] := rfl

@[simp] theorem insertAll_rows (table : Serial α) (rows : List (Nat → α)) :
    (table.insertAll rows).2.rows = table.rows ++ (table.insertAll rows).1 := by
  induction rows generalizing table with
  | nil => simp [insertAll]
  | cons row rest ih =>
    rw [insertAll, ih, insert_rows, List.append_assoc]
    rfl

theorem mem_insertAll {table : Serial α} {rows : List (Nat → α)} {row : α}
    (h : row ∈ (table.insertAll rows).1) : ∃ make ∈ rows, ∃ id, row = make id := by
  induction rows generalizing table with
  | nil => cases h
  | cons make rest ih =>
    rcases List.mem_cons.mp h with rfl | hrest
    · exact ⟨make, by simp, table.next, rfl⟩
    · obtain ⟨found, hf, id, heq⟩ := ih hrest
      exact ⟨found, List.mem_cons_of_mem _ hf, id, heq⟩

theorem insertAll_eq (table : Serial α) (rows : List (Nat → α)) :
    (table.insertAll rows).1 = (rows.zipIdx table.next).map fun item => item.1 item.2 := by
  induction rows generalizing table with
  | nil => rfl
  | cons row rest ih =>
    rw [insertAll, List.zipIdx_cons, List.map_cons]
    exact congrArg _ (ih (table.insert row).2)

theorem zip_insertAll {β : Type} (table : Serial α) (items : List β) (row : β → Nat → α) :
    items.zip (table.insertAll (items.map row)).1 =
      (items.zipIdx table.next).map fun item => (item.1, row item.1 item.2) := by
  induction items generalizing table with
  | nil => rfl
  | cons item rest ih =>
    rw [List.zipIdx_cons, List.map_cons]
    exact congrArg _ (ih (table.insert (row item)).2)

theorem exists_mem_insertAll {rows : List (Nat → α)} {make : Nat → α} (table : Serial α)
    (h : make ∈ rows) : ∃ id, make id ∈ (table.insertAll rows).1 := by
  induction rows generalizing table with
  | nil => cases h
  | cons row rest ih =>
    rcases List.mem_cons.mp h with rfl | hrest
    · exact ⟨table.next, List.mem_cons_self⟩
    · obtain ⟨id, hid⟩ := ih (table.insert row).2 hrest
      exact ⟨id, List.mem_cons_of_mem _ hid⟩

/-- A column that does not depend on the identity. -/
theorem insertAll_map {β : Type} {f : α → β} {g : (Nat → α) → β} (table : Serial α)
    {rows : List (Nat → α)} (h : ∀ row ∈ rows, ∀ id, f (row id) = g row) :
    (table.insertAll rows).1.map f = rows.map g := by
  induction rows generalizing table with
  | nil => rfl
  | cons row rest ih =>
    have htail := ih (table.insert row).2 fun other ho => h other (by simp [ho])
    rw [List.map_cons, ← h row (by simp) table.next, ← htail]
    rfl

/-- The identities of a table are its own: positive, below the next one, and
distinct. -/
structure Keyed (key : α → Nat) (table : Serial α) : Prop where
  next_pos : 0 < table.next
  pos : ∀ row ∈ table.rows, 0 < key row
  lt : ∀ row ∈ table.rows, key row < table.next
  nodup : (table.rows.map key).Nodup

variable {key : α → Nat} {table : Serial α}

theorem keyed_empty (key : α → Nat) : (empty : Serial α).Keyed key where
  next_pos := Nat.one_pos
  pos := by simp [empty]
  lt := by simp [empty]
  nodup := by simp [empty]

theorem Keyed.append (h : table.Keyed key) {row : α} (hrow : key row = table.next) :
    Keyed key { rows := table.rows ++ [row], next := table.next + 1 } := by
  have hmem : ∀ other ∈ table.rows ++ [row], other ∈ table.rows ∨ other = row := by
    intro other ho
    rcases List.mem_append.mp ho with hold | hnew
    · exact Or.inl hold
    · exact Or.inr (List.mem_singleton.mp hnew)
  constructor
  · exact Nat.succ_pos _
  · intro other ho
    rcases hmem other ho with hold | rfl
    · exact h.pos other hold
    · rw [hrow]
      exact h.next_pos
  · intro other ho
    show key other < table.next + 1
    rcases hmem other ho with hold | rfl
    · have hlt := h.lt other hold
      omega
    · omega
  · rw [List.map_append, List.nodup_append]
    refine ⟨h.nodup, by simp, ?_⟩
    intro id hid other ho
    obtain ⟨old, hold, rfl⟩ := List.mem_map.mp hid
    have hnext : other = key row := List.mem_singleton.mp ho
    have hlt := h.lt old hold
    omega

theorem Keyed.appendAll (h : table.Keyed key) {rows : List α}
    (hrows : rows.map key = List.range' table.next rows.length) :
    Keyed key { rows := table.rows ++ rows, next := table.next + rows.length } := by
  induction rows generalizing table with
  | nil => simpa using h
  | cons row rest ih =>
    rw [List.map_cons, List.length_cons, List.range'_succ] at hrows
    obtain ⟨hrow, hrest⟩ := List.cons.inj hrows
    have htail := ih (h.append hrow) hrest
    rw [List.append_assoc, List.singleton_append, Nat.add_assoc, Nat.add_comm 1] at htail
    exact htail

theorem Keyed.insert (h : table.Keyed key) {row : Nat → α} (hrow : ∀ id, key (row id) = id) :
    (table.insert row).2.Keyed key :=
  h.append (hrow table.next)

theorem Keyed.insertAll (h : table.Keyed key) {rows : List (Nat → α)}
    (hrows : ∀ row ∈ rows, ∀ id, key (row id) = id) : (table.insertAll rows).2.Keyed key := by
  induction rows generalizing table with
  | nil => exact h
  | cons row rest ih =>
    have hfst := h.insert (hrows row (by simp))
    exact ih hfst fun other ho => hrows other (by simp [ho])

theorem Keyed.replace (h : table.Keyed key) (row : α) : (table.replace key row).Keyed key := by
  have hkeys : (table.replace key row).rows.map key = table.rows.map key := by
    rw [Serial.replace, Table.modify, List.map_map]
    apply List.map_congr_left
    intro other _
    simp only [Function.comp_apply]
    split
    · rename_i hsame
      exact hsame.symm
    · rfl
  have hmem : ∀ other ∈ (table.replace key row).rows, ∃ old ∈ table.rows, key old = key other := by
    intro other ho
    have hkey : key other ∈ table.rows.map key := by
      rw [← hkeys]
      exact List.mem_map_of_mem ho
    exact List.mem_map.mp hkey
  constructor
  · exact h.next_pos
  · intro other ho
    obtain ⟨old, hold, heq⟩ := hmem other ho
    rw [← heq]
    exact h.pos old hold
  · intro other ho
    obtain ⟨old, hold, heq⟩ := hmem other ho
    rw [← heq]
    exact h.lt old hold
  · rw [hkeys]
    exact h.nodup

theorem Keyed.mapRows (h : table.Keyed key) {f : α → α} (hf : ∀ row, key (f row) = key row) :
    Keyed key { table with rows := table.rows.map f } := by
  have hkeys : (table.rows.map f).map key = table.rows.map key := by
    rw [List.map_map]
    exact List.map_congr_left fun row _ => hf row
  constructor
  · exact h.next_pos
  · intro row hrow
    obtain ⟨old, hold, rfl⟩ := List.mem_map.mp hrow
    rw [hf]
    exact h.pos old hold
  · intro row hrow
    obtain ⟨old, hold, rfl⟩ := List.mem_map.mp hrow
    rw [hf]
    exact h.lt old hold
  · rw [hkeys]
    exact h.nodup

theorem Keyed.filterRows (h : table.Keyed key) (p : α → Bool) :
    Keyed key { table with rows := table.rows.filter p } where
  next_pos := h.next_pos
  pos := fun row hrow => h.pos row (List.mem_of_mem_filter hrow)
  lt := fun row hrow => h.lt row (List.mem_of_mem_filter hrow)
  nodup := h.nodup.sublist (List.filter_sublist.map key)

theorem Keyed.split_replace (h : table.Keyed key) {old row : α} (hold : old ∈ table.rows)
    (hkey : key row = key old) :
    ∃ before after, table.rows = before ++ old :: after ∧
      (table.replace key row).rows = before ++ row :: after := by
  obtain ⟨before, after, hrows⟩ := List.append_of_mem hold
  refine ⟨before, after, hrows, ?_⟩
  have hnd := h.nodup
  rw [hrows, List.map_append, List.map_cons, List.nodup_append, List.nodup_cons] at hnd
  obtain ⟨-, ⟨ha, -⟩, hb⟩ := hnd
  have ho : ∀ other ∈ before ++ after, (if key other = key row then row else other) = other := by
    intro other hmem
    rw [if_neg]
    intro hsame
    rw [hkey] at hsame
    rcases List.mem_append.mp hmem with hleft | hright
    · exact hb _ (List.mem_map_of_mem hleft) _ (by simp) hsame
    · exact ha (hsame ▸ List.mem_map_of_mem hright)
  have hkeep : ∀ others : List α, (∀ other ∈ others, other ∈ before ++ after) →
      others.map (fun other => if key other = key row then row else other) = others := by
    intro others hsub
    conv_rhs => rw [← List.map_id others]
    apply List.map_congr_left
    intro other hmem
    exact ho other (hsub other hmem)
  rw [Serial.replace, Table.modify, hrows, List.map_append, List.map_cons,
    hkeep before (fun other hmem => List.mem_append_left _ hmem),
    hkeep after (fun other hmem => List.mem_append_right _ hmem), if_pos hkey.symm]

/-- A column stays without duplicates when the value written into it is not that
of another row. -/
theorem Keyed.nodup_replace {β : Type} {f : α → β} (h : table.Keyed key) {old row : α}
    (hold : old ∈ table.rows) (hkey : key row = key old) (hnd : (table.rows.map f).Nodup)
    (hnew : ∀ other ∈ table.rows, f other = f row → key other = key old) :
    ((table.replace key row).rows.map f).Nodup := by
  obtain ⟨before, after, hrows, hrepl⟩ := h.split_replace hold hkey
  have hkeys := h.nodup
  rw [hrows] at hnd hkeys
  rw [List.map_append, List.map_cons, List.nodup_append, List.nodup_cons] at hnd hkeys
  rw [hrepl, List.map_append, List.map_cons, List.nodup_append, List.nodup_cons]
  have ha : f row ∉ after.map f := by
    intro hmem
    obtain ⟨other, ho, heq⟩ := List.mem_map.mp hmem
    have hsame := hnew other (by rw [hrows]; simp [ho]) heq
    exact hkeys.2.1.1 (hsame ▸ List.mem_map_of_mem ho)
  refine ⟨hnd.1, ⟨ha, hnd.2.1.2⟩, ?_⟩
  intro value hval other ho heq
  subst heq
  rcases List.mem_cons.mp ho with hfst | hrest
  · obtain ⟨earl, hearl, heq⟩ := List.mem_map.mp hval
    have hsame := hnew earl (by rw [hrows]; simp [hearl]) (heq.trans hfst)
    exact hkeys.2.2 _ (List.mem_map_of_mem hearl) _ (List.mem_cons_self ..) hsame
  · exact hnd.2.2 _ hval _ (List.mem_cons_of_mem _ hrest) rfl

theorem Keyed.countP_replace (h : table.Keyed key) {old row : α} (hold : old ∈ table.rows)
    (hkey : key row = key old) (p : α → Bool) :
    (table.replace key row).rows.countP p + (if p old then 1 else 0) =
      table.rows.countP p + (if p row then 1 else 0) := by
  obtain ⟨before, after, hrows, hrepl⟩ := h.split_replace hold hkey
  rw [hrows, hrepl, List.countP_append, List.countP_append, List.countP_cons,
    List.countP_cons]
  omega

theorem Keyed.sum_replace (h : table.Keyed key) {old row : α} (hold : old ∈ table.rows)
    (hkey : key row = key old) (f : α → Nat) :
    ((table.replace key row).rows.map f).sum + f old = (table.rows.map f).sum + f row := by
  obtain ⟨before, after, hrows, hrepl⟩ := h.split_replace hold hkey
  rw [hrows, hrepl, List.map_append, List.map_append, List.map_cons, List.map_cons,
    List.sum_append, List.sum_append, List.sum_cons, List.sum_cons]
  omega

theorem Keyed.eq_of_key (h : table.Keyed key) {row other : α} (hrow : row ∈ table.rows)
    (ho : other ∈ table.rows) (heq : key row = key other) : row = other :=
  List.inj_on_of_nodup_map h.nodup hrow ho heq

/-- Writing one row over another leaves each row related to one of the new table. -/
theorem Keyed.exists_replace (h : table.Keyed key) {R : α → α → Prop} (hrefl : ∀ row, R row row)
    {old new : α} (hold : old ∈ table.rows) (hkey : key new = key old) (hnew : R old new) :
    ∀ before ∈ table.rows, ∃ later ∈ (table.replace key new).rows, R before later := by
  intro before hb
  by_cases hsame : key before = key new
  · obtain rfl := h.eq_of_key hb hold (hsame.trans hkey)
    exact ⟨new, mem_replace_self hold hkey, hnew⟩
  · exact ⟨before, mem_replace_of_ne hb hsame, hrefl before⟩

theorem Keyed.find? (h : table.Keyed key) {row : α} (hrow : row ∈ table.rows) {p : α → Bool}
    (hp : p row = true) (hkey : ∀ other, p other = true → key other = key row) :
    table.rows.find? p = some row := by
  cases hfind : table.rows.find? p with
  | none => exact absurd hp (List.find?_eq_none.mp hfind row hrow)
  | some found =>
    have hf := List.mem_of_find?_eq_some hfind
    have hsame := hkey found (List.find?_some hfind)
    rw [h.eq_of_key hf hrow hsame]

end Serial

end TamForge.ProofSupport
