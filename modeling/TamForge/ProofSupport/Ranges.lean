import Mathlib.Data.List.Sort
import Mathlib.Order.Bounds.Basic

/-!
# Half-open ranges of positions

Ranges of natural numbers, and when a list of them covers every position below a
bound exactly once.
-/

namespace TamForge.ProofSupport

/-- The positions `start, …, start + count - 1`. -/
structure Span where
  start : Nat
  count : Nat

namespace Span

variable {span : Span} {spans rest : List Span} {cursor n s total : Nat}

def stop (span : Span) : Nat := span.start + span.count

def contains (span : Span) (s : Nat) : Bool :=
  decide (span.start ≤ s) && decide (s < span.stop)

theorem contains_iff : span.contains s = true ↔ span.start ≤ s ∧ s < span.stop := by
  rw [contains, Bool.and_eq_true, decide_eq_true_eq, decide_eq_true_eq]

/-- One of two ranges ends before the other starts. -/
def Apart (left right : Span) : Prop :=
  left.stop ≤ right.start ∨ right.stop ≤ left.start

/-- Two ranges with positions in them are apart exactly when they have none in
common. -/
theorem apart_iff {left right : Span} (hleft : 0 < left.count) (hright : 0 < right.count) :
    Apart left right ↔ ∀ s, left.contains s = true → right.contains s = false := by
  constructor
  · intro hapart s hin
    rw [contains_iff] at hin
    rw [← Bool.not_eq_true, contains_iff]
    rcases hapart with h | h <;> omega
  · intro hnone
    by_contra hmeet
    simp only [Apart, not_or, not_le, stop] at hmeet
    have hin : left.contains (max left.start right.start) = true := by
      rw [contains_iff, stop]
      omega
    have hout := hnone _ hin
    rw [← Bool.not_eq_true, contains_iff, stop] at hout
    omega

/-! ## Covered exactly once -/

/-- Every position below `total` is in exactly one of the ranges, and no other
position is in any. -/
def Tiles (spans : List Span) (total : Nat) : Prop :=
  ∀ s, spans.countP (·.contains s) = if s < total then 1 else 0

theorem Tiles.perm (h : Tiles spans total) (hperm : spans.Perm rest) : Tiles rest total := by
  intro s
  rw [← hperm.countP_eq]
  exact h s

/-- Walk over ranges each of which has to start where the last one ended. -/
def sweep : Nat → List Span → Option Nat
  | cursor, [] => some cursor
  | cursor, span :: rest => if span.start = cursor then sweep span.stop rest else none

theorem sweep_append (cursor : Nat) (spans rest : List Span) :
    sweep cursor (spans ++ rest) = (sweep cursor spans).bind fun stop => sweep stop rest := by
  induction spans generalizing cursor with
  | nil => rfl
  | cons span spans ih =>
    rw [List.cons_append, sweep, sweep]
    split
    · exact ih span.stop
    · rfl

theorem sweep_split (h : sweep cursor (spans ++ rest) = some total) :
    ∃ stop, sweep cursor spans = some stop ∧ sweep stop rest = some total := by
  rw [sweep_append] at h
  exact Option.bind_eq_some_iff.mp h

theorem sweep_join {stop : Nat} (hspans : sweep cursor spans = some stop)
    (hrest : sweep stop rest = some total) : sweep cursor (spans ++ rest) = some total := by
  rw [sweep_append, hspans]
  exact hrest

theorem sweep_single (hstart : span.start = cursor) (hstop : span.stop = total) :
    sweep cursor [span] = some total := by
  rw [sweep, if_pos hstart, sweep, hstop]

theorem countP_of_sweep (h : sweep cursor spans = some total) (s : Nat) :
    cursor ≤ total ∧
      spans.countP (·.contains s) = if cursor ≤ s ∧ s < total then 1 else 0 := by
  induction spans generalizing cursor with
  | nil =>
    rw [sweep, Option.some.injEq] at h
    subst h
    refine ⟨Nat.le_refl _, ?_⟩
    rw [List.countP_nil, if_neg (by omega)]
  | cons span rest ih =>
    rw [sweep] at h
    split at h
    · rename_i hstart
      obtain ⟨hle, hcnt⟩ := ih h
      have hstop : cursor ≤ span.stop := by
        rw [stop]
        omega
      refine ⟨by omega, ?_⟩
      rw [List.countP_cons, hcnt]
      by_cases hin : span.contains s = true
      · have hbd := contains_iff.mp hin
        rw [if_pos hin, if_neg (by omega), if_pos (by omega)]
      · have hbd := mt contains_iff.mpr hin
        rw [if_neg hin]
        by_cases hrest : span.stop ≤ s ∧ s < total
        · rw [if_pos hrest, if_pos (by omega)]
        · rw [if_neg hrest, if_neg (by omega)]
    · cases h

theorem tiles_of_sweep (h : sweep 0 spans = some total) : Tiles spans total := by
  intro s
  rw [(countP_of_sweep h s).2]
  simp

/-! ## The same cover -/

def SameCover (spans rest : List Span) : Prop :=
  ∀ s, spans.countP (·.contains s) = rest.countP (·.contains s)

theorem SameCover.trans {other : List Span} (h : SameCover spans rest)
    (ho : SameCover rest other) : SameCover spans other :=
  fun s => (h s).trans (ho s)

theorem SameCover.symm (h : SameCover spans rest) : SameCover rest spans :=
  fun s => (h s).symm

theorem sameCover_of_perm (h : spans.Perm rest) : SameCover spans rest :=
  fun s => h.countP_eq (·.contains s)

theorem SameCover.cons (span : Span) (h : SameCover spans rest) :
    SameCover (span :: spans) (span :: rest) := by
  intro s
  rw [List.countP_cons, List.countP_cons, h s]

theorem SameCover.of_cons (h : SameCover (span :: spans) (span :: rest)) :
    SameCover spans rest := by
  intro s
  have hcnt := h s
  rw [List.countP_cons, List.countP_cons] at hcnt
  omega

/-- A position in a range of the one list is in a range of the other. -/
theorem SameCover.exists_contains (h : SameCover spans rest) (hspan : span ∈ spans)
    (hin : span.contains s = true) : ∃ other ∈ rest, other.contains s = true := by
  rw [← List.countP_pos_iff, ← h s, List.countP_pos_iff]
  exact ⟨span, hspan, hin⟩

theorem contains_start (hpos : 0 < span.count) : span.contains span.start = true := by
  rw [contains_iff, stop]
  omega

theorem SameCover.eq_nil (h : SameCover spans []) (hpos : ∀ span ∈ spans, 0 < span.count) :
    spans = [] := by
  cases spans with
  | nil => rfl
  | cons span spans =>
    obtain ⟨other, ho, -⟩ := h.exists_contains (List.mem_cons_self ..)
      (contains_start (hpos span (List.mem_cons_self ..)))
    cases ho

theorem sameCover_cut (start m n : Nat) (spans : List Span) :
    SameCover (⟨start, m + n⟩ :: spans) (⟨start, m⟩ :: ⟨start + m, n⟩ :: spans) := by
  intro s
  rw [List.countP_cons, List.countP_cons, List.countP_cons]
  simp only [contains_iff, stop]
  by_cases hlow : start ≤ s ∧ s < start + m
  · rw [if_pos hlow, if_pos (by omega), if_neg (by omega)]
  · rw [if_neg hlow]
    by_cases hhigh : start + m ≤ s ∧ s < start + m + n
    · rw [if_pos hhigh, if_pos (by omega)]
    · rw [if_neg hhigh, if_neg (by omega)]

theorem sameCover_empty (start : Nat) (spans : List Span) :
    SameCover (⟨start, 0⟩ :: spans) spans := by
  intro s
  rw [List.countP_cons, if_neg, Nat.add_zero]
  simp only [contains_iff, stop]
  omega

theorem sameCover_begin {n : Nat} (hstart : span.start = cursor) (hstop : span.stop ≤ cursor + n)
    (spans : List Span) :
    SameCover (⟨cursor, n⟩ :: spans) (span :: ⟨span.stop, cursor + n - span.stop⟩ :: spans) := by
  have hcut := sameCover_cut cursor span.count (cursor + n - span.stop) spans
  have hwhole : span.count + (cursor + n - span.stop) = n := by
    rw [stop] at hstop ⊢
    omega
  have hspan : (⟨cursor, span.count⟩ : Span) = span := by
    rw [← hstart]
  have hend : cursor + span.count = span.stop := by
    rw [stop, hstart]
  rw [hwhole, hspan, hend] at hcut
  exact hcut

/-- Ordered ranges that cover what a first range and later ones cover begin with
a piece of that first range, and the others cover what is left of it. -/
theorem SameCover.peel {n : Nat} (h : SameCover (span :: spans) (⟨cursor, n⟩ :: rest))
    (hn : 0 < n) (hpos : 0 < span.count) (hsort : ∀ other ∈ spans, span.start ≤ other.start)
    (hlat : ∀ other ∈ rest, cursor + n < other.start) :
    span.start = cursor ∧ span.stop ≤ cursor + n ∧
      SameCover spans (⟨span.stop, cursor + n - span.stop⟩ :: rest) := by
  have hbegin : cursor ≤ span.start := by
    obtain ⟨other, ho, hin⟩ := h.exists_contains (List.mem_cons_self ..) (contains_start hpos)
    rw [contains_iff] at hin
    rcases List.mem_cons.mp ho with rfl | hrest
    · exact hin.1
    · have ha := hlat other hrest
      omega
  have hstart : span.start = cursor := by
    have hfst : (⟨cursor, n⟩ : Span).contains cursor = true := contains_start hn
    obtain ⟨other, ho, hin⟩ := h.symm.exists_contains (List.mem_cons_self ..) hfst
    rw [contains_iff] at hin
    rcases List.mem_cons.mp ho with rfl | hspans
    · exact Nat.le_antisymm hin.1 hbegin
    · have hle := hsort other hspans
      exact Nat.le_antisymm (Nat.le_trans hle hin.1) hbegin
  have hstop : span.stop ≤ cursor + n := by
    by_contra hbeyond
    have hin : span.contains (cursor + n) = true := by
      rw [contains_iff]
      omega
    obtain ⟨other, ho, hcovered⟩ := h.exists_contains (List.mem_cons_self ..) hin
    rw [contains_iff] at hcovered
    rcases List.mem_cons.mp ho with rfl | hrest
    · exact Nat.lt_irrefl _ hcovered.2
    · have ha := hlat other hrest
      omega
  exact ⟨hstart, hstop, (h.trans (sameCover_begin hstart hstop rest)).of_cons⟩

/-- A sweep over ordered ranges gets through when they cover what it has to
pass. -/
theorem sweep_of_sameCover (hsort : spans.Pairwise fun left right => left.start ≤ right.start)
    (hpos : ∀ span ∈ spans, 0 < span.count) {n : Nat} (h : SameCover spans [⟨cursor, n⟩]) :
    sweep cursor spans = some (cursor + n) := by
  induction spans generalizing cursor n with
  | nil =>
    have hn : n = 0 := by
      by_contra hne
      have hnone := h.symm.eq_nil (by
        intro other ho
        rw [List.mem_singleton.mp ho]
        exact Nat.pos_of_ne_zero hne)
      cases hnone
    rw [sweep, hn, Nat.add_zero]
  | cons span spans ih =>
    rw [List.pairwise_cons] at hsort
    have hspan := hpos span (List.mem_cons_self ..)
    have hn : 0 < n := by
      obtain ⟨other, ho, hin⟩ := h.exists_contains (List.mem_cons_self ..)
        (contains_start hspan)
      rw [List.mem_singleton.mp ho, contains_iff] at hin
      exact Nat.pos_of_lt_add_right (Nat.lt_of_le_of_lt hin.1 hin.2)
    obtain ⟨hstart, hstop, hrest⟩ := h.peel hn hspan hsort.1 (by simp)
    rw [sweep, if_pos hstart, ih hsort.2 (fun other ho =>
      hpos other (List.mem_cons_of_mem _ ho)) hrest, Nat.add_sub_cancel' hstop]

theorem Tiles.sameCover (h : Tiles spans total) : SameCover spans [⟨0, total⟩] := by
  intro s
  rw [h s, List.countP_singleton]
  simp only [contains_iff, stop, Nat.zero_le, true_and, Nat.zero_add]

theorem sweep_iff_tiles (hsort : spans.Pairwise fun left right => left.start ≤ right.start)
    (hpos : ∀ span ∈ spans, 0 < span.count) :
    sweep 0 spans = some total ↔ Tiles spans total := by
  constructor
  · exact tiles_of_sweep
  · intro htiles
    rw [sweep_of_sameCover hsort hpos htiles.sameCover, Nat.zero_add]

theorem pairwise_apart (hpos : ∀ span ∈ spans, 0 < span.count)
    (hcnt : ∀ s, spans.countP (·.contains s) ≤ 1) : spans.Pairwise Apart := by
  induction spans with
  | nil => exact List.Pairwise.nil
  | cons span spans ih =>
    rw [List.forall_mem_cons] at hpos
    rw [List.pairwise_cons]
    constructor
    · intro other ho
      rw [apart_iff hpos.1 (hpos.2 other ho)]
      intro s hin
      by_contra hboth
      have hrest : 0 < spans.countP (·.contains s) :=
        List.countP_pos_iff.mpr ⟨other, ho, Bool.not_eq_false _ ▸ hboth⟩
      have hle := hcnt s
      rw [List.countP_cons, if_pos hin] at hle
      omega
    · apply ih hpos.2
      intro s
      have hle := hcnt s
      rw [List.countP_cons] at hle
      omega

/-- A position in at most one range is in one exactly when any range has it. -/
theorem countP_eq_any (hcnt : ∀ s, spans.countP (·.contains s) ≤ 1) (s : Nat) :
    spans.countP (·.contains s) = if spans.any (·.contains s) then 1 else 0 := by
  split
  · rename_i hany
    rw [List.any_eq_true, ← List.countP_pos_iff] at hany
    have hle := hcnt s
    omega
  · rename_i hnone
    rw [List.any_eq_true, ← List.countP_pos_iff] at hnone
    omega

end Span

end TamForge.ProofSupport
