import Mathlib.Algebra.Order.Ring.Int
import Mathlib.Data.List.Basic
import Mathlib.Data.List.Nodup

/-!
# Tables with a primary key

A table is the list of its rows, and `key` reads a row's primary key.
`lookup` is `SELECT ... WHERE key = k`, `modify` is `UPDATE ... WHERE key = k`,
and inserting a row appends it.  Nothing here depends on what the rows are.
-/

namespace TamForge.ProofSupport.Table

variable {ρ κ : Type} [DecidableEq κ] {key : ρ → κ} {rows : List ρ} {row : ρ} {k k' : κ}
  {f : ρ → ρ}

/-- The row stored under `k`, if there is one. -/
def lookup (key : ρ → κ) (rows : List ρ) (k : κ) : Option ρ :=
  rows.find? fun row => key row = k

/-- Rewrite the row stored under `k`. -/
def modify (key : ρ → κ) (rows : List ρ) (k : κ) (f : ρ → ρ) : List ρ :=
  rows.map fun row => if key row = k then f row else row

def later (rank : ρ → Nat) : Option ρ → ρ → Option ρ
  | none, row => some row
  | some best, row => if rank best < rank row then some row else some best

/-- `ORDER BY rank DESC LIMIT 1`. -/
def latest (rank : ρ → Nat) (rows : List ρ) : Option ρ :=
  rows.foldl (later rank) none

theorem latest_map {rank : ρ → Nat} (hf : ∀ row, rank (f row) = rank row) (rows : List ρ) :
    latest rank (rows.map f) = (latest rank rows).map f := by
  have hstep : ∀ best row, later rank (best.map f) (f row) = (later rank best row).map f := by
    intro best row
    cases best with
    | none => rfl
    | some other =>
      simp only [Option.map_some, later, hf]
      split <;> rfl
  have hfold : ∀ best, (rows.map f).foldl (later rank) (best.map f) =
      (rows.foldl (later rank) best).map f := by
    induction rows with
    | nil => exact fun _ => rfl
    | cons first rest ih =>
      intro best
      rw [List.map_cons, List.foldl_cons, List.foldl_cons, hstep, ih]
  exact hfold none

theorem mem_of_latest {rank : ρ → Nat} (h : latest rank rows = some row) : row ∈ rows := by
  have hfold : ∀ (rows : List ρ) best, rows.foldl (later rank) best = some row →
      row ∈ rows ∨ best = some row := by
    intro rows
    induction rows with
    | nil => exact fun best hbest => Or.inr hbest
    | cons first rest ih =>
      intro best hbest
      rcases ih _ hbest with hrest | hfst
      · exact Or.inl (by simp [hrest])
      · cases best with
        | none =>
          obtain rfl := Option.some.inj hfst
          exact Or.inl (by simp)
        | some other =>
          rw [later] at hfst
          split at hfst
          · obtain rfl := Option.some.inj hfst
            exact Or.inl (by simp)
          · exact Or.inr hfst
  rcases hfold rows none h with hrows | hnone
  · exact hrows
  · cases hnone

theorem latest_of_unique {rank : ρ → Nat} (hmem : row ∈ rows)
    (huniq : ∀ other ∈ rows, other = row) : latest rank rows = some row := by
  have hfold : ∀ (rows : List ρ) best, ((rows.foldl (later rank) (some best))).isSome := by
    intro rows
    induction rows with
    | nil => exact fun _ => rfl
    | cons first rest ih =>
      intro best
      rw [List.foldl_cons, later]
      split
      · exact ih first
      · exact ih best
  have hsome : (latest rank rows).isSome := by
    cases rows with
    | nil => simp at hmem
    | cons first rest => exact hfold rest first
  obtain ⟨found, hf⟩ := Option.isSome_iff_exists.mp hsome
  rw [hf, huniq found (mem_of_latest hf)]

theorem latest_snoc {rank : ρ → Nat} (h : ∀ other ∈ rows, rank other < rank row) :
    latest rank (rows ++ [row]) = some row := by
  rw [latest, List.foldl_append]
  show later rank (latest rank rows) row = some row
  cases hbest : latest rank rows with
  | none => rfl
  | some best => exact if_pos (h best (mem_of_latest hbest))

theorem mem_of_lookup (h : lookup key rows k = some row) : row ∈ rows :=
  List.mem_of_find?_eq_some h

theorem key_of_lookup (h : lookup key rows k = some row) : key row = k := by
  simpa using List.find?_some h

theorem lookup_eq_none : lookup key rows k = none ↔ ∀ row ∈ rows, key row ≠ k := by
  simp [lookup]

theorem lookup_of_mem (hnd : (rows.map key).Nodup) (hmem : row ∈ rows) :
    lookup key rows (key row) = some row := by
  induction rows with
  | nil => simp at hmem
  | cons first rest ih =>
    rw [List.map_cons, List.nodup_cons] at hnd
    rcases List.mem_cons.mp hmem with rfl | hrest
    · simp [lookup]
    · have hne : key first ≠ key row := by
        intro heq
        exact hnd.1 (heq ▸ List.mem_map_of_mem hrest)
      have hih := ih hnd.2 hrest
      simpa [lookup, hne] using hih

theorem filter_key_of_mem (hnd : (rows.map key).Nodup) (hmem : row ∈ rows) :
    (rows.filter fun other => key other = key row) = [row] := by
  induction rows with
  | nil => simp at hmem
  | cons first rest ih =>
    rw [List.map_cons, List.nodup_cons] at hnd
    rcases List.mem_cons.mp hmem with rfl | hrest
    · have hnone : (rest.filter fun other => key other = key row) = [] := by
        rw [List.filter_eq_nil_iff]
        intro other ho heq
        apply hnd.1
        rw [← of_decide_eq_true heq]
        exact List.mem_map_of_mem ho
      simp [hnone]
    · have hne : key first ≠ key row := by
        intro heq
        exact hnd.1 (heq ▸ List.mem_map_of_mem hrest)
      simp [hne, ih hnd.2 hrest]

theorem lookup_append_self (hnew : lookup key rows (key row) = none) :
    lookup key (rows ++ [row]) (key row) = some row := by
  unfold lookup at hnew ⊢
  rw [List.find?_append, hnew]
  simp

theorem lookup_append_ne (hne : key row ≠ k) :
    lookup key (rows ++ [row]) k = lookup key rows k := by
  unfold lookup
  rw [List.find?_append]
  simp [hne]

theorem keys_modify (hkey : ∀ row, key (f row) = key row) :
    (modify key rows k f).map key = rows.map key := by
  rw [modify, List.map_map]
  apply List.map_congr_left
  intro row _
  simp only [Function.comp_apply]
  split
  · exact hkey row
  · rfl

theorem lookup_modify_self (hkey : ∀ row, key (f row) = key row) :
    lookup key (modify key rows k f) k = (lookup key rows k).map f := by
  induction rows with
  | nil => rfl
  | cons first rest ih =>
    unfold lookup modify at ih ⊢
    rw [List.map_cons, List.find?_cons, List.find?_cons]
    by_cases hfst : key first = k
    · simp [hfst, hkey]
    · simp [hfst, ih]

theorem lookup_modify_ne (hkey : ∀ row, key (f row) = key row) (hne : k' ≠ k) :
    lookup key (modify key rows k f) k' = lookup key rows k' := by
  induction rows with
  | nil => rfl
  | cons first rest ih =>
    unfold lookup modify at ih ⊢
    rw [List.map_cons, List.find?_cons, List.find?_cons]
    by_cases hfst : key first = k
    · simp [hfst, hkey, ih, hne.symm]
    · simp [hfst, ih]

omit [DecidableEq κ] in
theorem nodup_insert (hnd : (rows.map key).Nodup) (hnew : ∀ other ∈ rows, key other ≠ key row) :
    ((rows ++ [row]).map key).Nodup := by
  rw [List.map_append, List.nodup_append]
  refine ⟨hnd, List.nodup_singleton _, ?_⟩
  intro value hval other ho
  obtain ⟨old, hold, rfl⟩ := List.mem_map.mp hval
  rw [List.mem_singleton.mp ho]
  exact hnew old hold

/-! ## Lookups by a unique column -/

section Lookups

variable [BEq κ] [LawfulBEq κ]

theorem filter_unique (hnd : (rows.map key).Nodup) (hmem : row ∈ rows) (hkey : key row = k) :
    (rows.filter fun other => key other == k) = [row] := by
  rw [← hkey, ← filter_key_of_mem hnd hmem]
  apply List.filter_congr
  intro other _
  exact beq_eq_decide (key other) (key row)

omit [DecidableEq κ] in
theorem filter_missing (hnone : ∀ row ∈ rows, key row ≠ k) :
    (rows.filter fun other => key other == k) = [] := by
  rw [List.filter_eq_nil_iff]
  intro other ho heq
  exact hnone other ho (eq_of_beq heq)

theorem filter_cases (hnd : (rows.map key).Nodup) (k : κ) :
    (∃ row ∈ rows, key row = k ∧ (rows.filter fun other => key other == k) = [row]) ∨
      ((∀ row ∈ rows, key row ≠ k) ∧ (rows.filter fun other => key other == k) = []) := by
  by_cases hsome : ∃ row ∈ rows, key row = k
  · obtain ⟨row, hmem, hkey⟩ := hsome
    exact Or.inl ⟨row, hmem, hkey, filter_unique hnd hmem hkey⟩
  · have hnone : ∀ row ∈ rows, key row ≠ k := fun row hmem hkey => hsome ⟨row, hmem, hkey⟩
    exact Or.inr ⟨hnone, filter_missing hnone⟩

theorem filter_sub_unique (hnd : (rows.map key).Nodup) {p : ρ → Bool}
    (hp : ∀ row ∈ rows, p row = true → key row = k) :
    rows.filter p = [] ∨ ∃ row ∈ rows, p row = true ∧ rows.filter p = [row] := by
  have hsub : rows.filter p = (rows.filter fun other => key other == k).filter p := by
    rw [List.filter_filter]
    apply List.filter_congr
    intro other ho
    cases ho' : p other with
    | false => rfl
    | true => rw [hp other ho ho', beq_self_eq_true, Bool.and_self]
  rcases filter_cases hnd k with ⟨row, hmem, -, hfilt⟩ | ⟨-, hfilt⟩
  · rw [hsub, hfilt]
    cases hrow : p row with
    | true => exact Or.inr ⟨row, hmem, hrow, by simp [hrow]⟩
    | false => exact Or.inl (by simp [hrow])
  · exact Or.inl (by rw [hsub, hfilt, List.filter_nil])

end Lookups

end TamForge.ProofSupport.Table

/-!
## Rows numbered without a gap

The rows of an append-only log, numbered 1, 2, 3, ... in the order in which
they were appended.  Such a log is what "the number after the latest row's"
keeps up.
-/

namespace TamForge.ProofSupport

variable {α : Type} {number : α → Nat} {rows : List α} {row : α}

def Numbered (number : α → Nat) (rows : List α) : Prop :=
  rows.map number = List.range' 1 rows.length

namespace Numbered

theorem nil : Numbered number [] := rfl

theorem le_length (h : Numbered number rows) (hrow : row ∈ rows) : number row ≤ rows.length := by
  have hmem : number row ∈ List.range' 1 rows.length := h ▸ List.mem_map_of_mem hrow
  have hbd := List.mem_range'_1.mp hmem
  omega

theorem countP_le_one (h : Numbered number rows) (n : Nat) :
    rows.countP (fun other => decide (number other = n)) ≤ 1 := by
  have hnd : (rows.map number).Nodup := h ▸ List.nodup_range'
  have hcnt : (rows.map number).count n ≤ 1 := List.nodup_iff_count_le_one.mp hnd n
  rw [List.count, List.countP_map] at hcnt
  apply Nat.le_trans (Nat.le_of_eq _) hcnt
  exact List.countP_congr fun other _ => by simp

theorem append (h : Numbered number rows) (hrow : number row = rows.length + 1) :
    Numbered number (rows ++ [row]) := by
  rw [Numbered, List.map_append, h, List.length_append, List.length_singleton, List.range'_concat]
  simp [hrow, Nat.add_comm]

/-- The row with the greatest number is the last one, whose number is how many
there are. -/
theorem latest (h : Numbered number rows) :
    (Table.latest number rows = none ∧ rows = []) ∨
      ∃ init last, rows = init ++ [last] ∧ Table.latest number rows = some last ∧
        number last = rows.length := by
  rcases List.eq_nil_or_concat rows with rfl | ⟨init, last, rfl⟩
  · exact Or.inl ⟨rfl, rfl⟩
  · rw [List.concat_eq_append] at h ⊢
    have hparts := h
    rw [Numbered, List.map_append, List.length_append, List.length_singleton,
      List.range'_concat] at hparts
    obtain ⟨hinit, hlast⟩ := List.append_inj hparts (by simp)
    have hnum : number last = init.length + 1 := by
      have hhead := List.singleton_inj.mp hlast
      omega
    have hbound : ∀ other ∈ init, number other < number last := by
      intro other ho
      have hle : number other ≤ init.length := le_length hinit ho
      omega
    refine Or.inr ⟨init, last, rfl, ?_, by simp [hnum]⟩
    exact Table.latest_snoc hbound

end Numbered

end TamForge.ProofSupport
