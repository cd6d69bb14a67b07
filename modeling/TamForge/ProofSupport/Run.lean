import Mathlib.Data.List.Basic

/-!
# Finite runs of a labelled transition system

A run remembers every transition it made, oldest first, so that statements
about a whole execution (how often something happened, what every single
transition satisfies) are statements about a list.  The rules below are the
only inductions over runs that the program proofs need.
-/

namespace TamForge.ProofSupport

structure Transition (σ α : Type) where
  before : σ
  label : α
  after : σ

/-- `Run step start trace final`: the transitions of `trace`, in order, lead
from `start` to `final`. -/
inductive Run {σ α : Type} (step : σ → α → σ → Prop) (start : σ) :
    List (Transition σ α) → σ → Prop
  | refl : Run step start [] start
  | snoc {trace : List (Transition σ α)} {s t : σ} {a : α} :
      Run step start trace s → step s a t →
      Run step start (trace ++ [⟨s, a, t⟩]) t

namespace Run

variable {σ α : Type} {step : σ → α → σ → Prop} {start mid final : σ}
  {trace left right : List (Transition σ α)}

theorem single {s t : σ} {a : α} (h : step s a t) :
    Run step s [⟨s, a, t⟩] t := by
  simpa using Run.snoc Run.refl h

theorem append (hleft : Run step start left mid)
    (hright : Run step mid right final) :
    Run step start (left ++ right) final := by
  induction hright with
  | refl => simpa using hleft
  | snoc _ hstep ih =>
    rw [← List.append_assoc]
    exact ih.snoc hstep

/-- The invariant rule.  The invariant may speak about the history as well as
about the state reached. -/
theorem invariant {I : List (Transition σ α) → σ → Prop}
    (hrun : Run step start trace final) (hstart : I [] start)
    (hstep : ∀ trace s a t, I trace s → step s a t →
      I (trace ++ [⟨s, a, t⟩]) t) :
    I trace final := by
  induction hrun with
  | refl => exact hstart
  | snoc _ hlast ih => exact hstep _ _ _ _ ih hlast

theorem state_invariant {I : σ → Prop}
    (hrun : Run step start trace final) (hstart : I start)
    (hstep : ∀ s a t, I s → step s a t → I t) :
    I final :=
  hrun.invariant (I := fun _ => I) hstart
    (fun _ s a t hinv hlast => hstep s a t hinv hlast)

/-- What every step from an invariant state satisfies, every transition of the
run satisfies. -/
theorem forall_transition {I : σ → Prop} {P : Transition σ α → Prop}
    (hrun : Run step start trace final) (hstart : I start)
    (hstep : ∀ s a t, I s → step s a t → I t)
    (hP : ∀ s a t, I s → step s a t → P ⟨s, a, t⟩) :
    ∀ e ∈ trace, P e := by
  have key : I final ∧ ∀ e ∈ trace, P e := by
    refine hrun.invariant (I := fun trace s => I s ∧ ∀ e ∈ trace, P e)
      ⟨hstart, by simp⟩ ?_
    rintro trace s a t ⟨hinv, hall⟩ hlast
    refine ⟨hstep s a t hinv hlast, ?_⟩
    intro e he
    rcases List.mem_append.mp he with he | he
    · exact hall e he
    · rw [List.mem_singleton.mp he]
      exact hP s a t hinv hlast
  exact key.2

theorem split (hrun : Run step start trace final) {e : Transition σ α}
    (he : e ∈ trace) :
    ∃ before after, trace = before ++ e :: after ∧
      Run step start before e.before ∧ step e.before e.label e.after ∧
      Run step e.after after final := by
  induction hrun with
  | refl => simp at he
  | @snoc trace s t a hrun hlast ih =>
    rcases List.mem_append.mp he with he | he
    · obtain ⟨before, after, rfl, hb, hstep, ha⟩ := ih he
      exact ⟨before, after ++ [⟨s, a, t⟩], by simp, hb, hstep,
        ha.snoc hlast⟩
    · obtain rfl := List.mem_singleton.mp he
      exact ⟨trace, [], rfl, hrun, hlast, Run.refl⟩

theorem of_append (hrun : Run step start trace final) (htr : trace = left ++ right) :
    ∃ mid, Run step start left mid ∧ Run step mid right final := by
  induction hrun generalizing right with
  | refl =>
    obtain ⟨rfl, rfl⟩ := List.append_eq_nil_iff.mp htr.symm
    exact ⟨start, Run.refl, Run.refl⟩
  | @snoc earlier s t a hrun hlast ih =>
    rcases List.eq_nil_or_concat right with rfl | ⟨init, e, rfl⟩
    · rw [List.append_nil] at htr
      exact ⟨t, htr ▸ hrun.snoc hlast, Run.refl⟩
    · rw [List.concat_eq_append] at htr ⊢
      rw [← List.append_assoc] at htr
      obtain ⟨hinit, he⟩ := List.append_inj' htr rfl
      cases he
      obtain ⟨mid, hleft, hright⟩ := ih hinit
      exact ⟨mid, hleft, hright.snoc hlast⟩

theorem of_cons {e : Transition σ α} (hrun : Run step start (e :: right) final) :
    start = e.before ∧ step e.before e.label e.after ∧ Run step e.after right final := by
  have hsingle : ∀ {trace s}, Run step start trace s → trace = [e] →
      start = e.before ∧ step e.before e.label e.after ∧ s = e.after := by
    intro trace s hone htr
    cases hone with
    | refl => cases htr
    | @snoc earlier last _ a hnone hstep =>
      have hearl : earlier = [] ∧ [⟨last, a, s⟩] = [e] := List.append_inj' htr rfl
      obtain ⟨rfl, he⟩ := hearl
      cases he
      generalize hnil : ([] : List (Transition σ α)) = trace at hnone
      cases hnone with
      | refl => exact ⟨rfl, hstep, rfl⟩
      | snoc _ _ => simp at hnil
  obtain ⟨mid, hfst, hrest⟩ := of_append hrun (List.singleton_append).symm
  obtain ⟨hstart, hstep, rfl⟩ := hsingle hfst rfl
  exact ⟨hstart, hstep, hrest⟩

end Run

end TamForge.ProofSupport
