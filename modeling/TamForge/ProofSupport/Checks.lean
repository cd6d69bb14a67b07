import Mathlib.Algebra.Order.Ring.Int
import Mathlib.Data.List.Forall2

/-!
# Guard sequences and fallible steps

A validator of the form `if condition: raise error`, repeated, is a list of
conditions with their errors.  `raiseFirst` raises the error of the first
condition that holds.  The bind lemmas invert a computation in `Except` one
step at a time.
-/

namespace TamForge.ProofSupport

variable {ε α β : Type}

def raiseFirst : List (Bool × ε) → Except ε Unit
  | [] => .ok ()
  | (condition, error) :: rest =>
    if condition then .error error else raiseFirst rest

@[simp] theorem raiseFirst_nil : raiseFirst ([] : List (Bool × ε)) = .ok () := rfl

theorem raiseFirst_eq_ok {checks : List (Bool × ε)} :
    raiseFirst checks = .ok () ↔ ∀ check ∈ checks, check.1 = false := by
  induction checks with
  | nil => simp
  | cons check rest ih =>
    obtain ⟨cond, error⟩ := check
    cases cond <;> simp [raiseFirst, ih]

/-- A guard sequence that raises, raises one of its own errors, and that
error's condition holds. -/
theorem raiseFirst_error {checks : List (Bool × ε)} {error : ε}
    (h : raiseFirst checks = .error error) : (true, error) ∈ checks := by
  induction checks with
  | nil => simp at h
  | cons check rest ih =>
    obtain ⟨cond, first⟩ := check
    cases cond with
    | true =>
      simp only [raiseFirst, if_true, Except.error.injEq] at h
      simp [h]
    | false =>
      simp only [raiseFirst, Bool.false_eq_true, if_false] at h
      exact List.mem_cons_of_mem _ (ih h)

theorem bind_ok_iff {first : Except ε α} {next : α → Except ε β} {result : β} :
    (first >>= next) = .ok result ↔
      ∃ value, first = .ok value ∧ next value = .ok result := by
  constructor
  · intro h
    cases first with
    | error e => cases h
    | ok value => exact ⟨value, rfl, h⟩
  · rintro ⟨value, rfl, h⟩
    exact h

theorem then_ok_iff {first : Except ε Unit} {next : Except ε β} {result : β} :
    (first >>= fun _ => next) = .ok result ↔ first = .ok () ∧ next = .ok result := by
  rw [bind_ok_iff]
  constructor
  · rintro ⟨⟨⟩, hfst, hnext⟩
    exact ⟨hfst, hnext⟩
  · rintro ⟨hfst, hnext⟩
    exact ⟨(), hfst, hnext⟩

theorem exists_ok_of_isOk {res : Except ε α} (h : res.isOk = true) :
    ∃ value, res = .ok value := by
  cases res with
  | error e => cases h
  | ok value => exact ⟨value, rfl⟩

theorem mapError_ok_iff {ε' : Type} {rename : ε → ε'} {first : Except ε α} {result : α} :
    first.mapError rename = .ok result ↔ first = .ok result := by
  cases first <;> simp [Except.mapError]

theorem bind_error_iff {first : Except ε α} {next : α → Except ε β} {e : ε} :
    (first >>= next) = .error e ↔
      first = .error e ∨ ∃ value, first = .ok value ∧ next value = .error e := by
  constructor
  · intro h
    cases first with
    | error e' =>
      cases h
      exact Or.inl rfl
    | ok value => exact Or.inr ⟨value, rfl, h⟩
  · rintro (rfl | ⟨value, rfl, h⟩)
    · rfl
    · exact h

/-- A loop that collects results succeeds when each of its steps does. -/
theorem mapM_ok_iff {f : α → Except ε β} {xs : List α} {ys : List β} :
    xs.mapM f = .ok ys ↔ List.Forall₂ (fun x y => f x = .ok y) xs ys := by
  induction xs generalizing ys with
  | nil =>
    constructor
    · intro h
      cases h
      exact .nil
    · intro h
      cases h
      rfl
  | cons x rest ih =>
    rw [List.mapM_cons]
    simp only [bind_ok_iff]
    constructor
    · rintro ⟨first, hfst, others, hos, h⟩
      cases h
      exact .cons hfst (ih.mp hos)
    · intro h
      cases h with
      | cons hfst hrest => exact ⟨_, hfst, _, ih.mpr hrest, rfl⟩

theorem forall₂_mem_right {R : α → β → Prop} {xs : List α} {ys : List β}
    (h : List.Forall₂ R xs ys) {y : β} (hy : y ∈ ys) : ∃ x ∈ xs, R x y := by
  induction h with
  | nil => cases hy
  | cons hfst _ ih =>
    rcases List.mem_cons.mp hy with rfl | hrest
    · exact ⟨_, by simp, hfst⟩
    · obtain ⟨x, hx, hrelated⟩ := ih hrest
      exact ⟨x, List.mem_cons_of_mem _ hx, hrelated⟩

theorem mapM_ok_mem {f : α → Except ε β} {xs : List α} {ys : List β}
    (h : xs.mapM f = .ok ys) {y : β} (hy : y ∈ ys) : ∃ x ∈ xs, f x = .ok y :=
  forall₂_mem_right (mapM_ok_iff.mp h) hy

theorem exists_mapM_ok_iff {f : α → Except ε β} {xs : List α} :
    (∃ ys, xs.mapM f = .ok ys) ↔ ∀ x ∈ xs, ∃ y, f x = .ok y := by
  induction xs with
  | nil => exact ⟨fun _ => by simp, fun _ => ⟨[], rfl⟩⟩
  | cons x rest ih =>
    rw [List.forall_mem_cons, ← ih, List.mapM_cons]
    simp only [bind_ok_iff]
    constructor
    · rintro ⟨_, first, hfst, others, hos, -⟩
      exact ⟨⟨first, hfst⟩, others, hos⟩
    · rintro ⟨⟨first, hfst⟩, others, hos⟩
      exact ⟨_, first, hfst, others, hos, rfl⟩

/-- A column that each step of the loop keeps. -/
theorem mapM_ok_map {γ : Type} {f : α → Except ε β} {xs : List α} {ys : List β} {g : α → γ}
    {h : β → γ} (hloop : xs.mapM f = .ok ys) (hstep : ∀ x y, f x = .ok y → h y = g x) :
    ys.map h = xs.map g := by
  have hpairs := mapM_ok_iff.mp hloop
  clear hloop
  induction hpairs with
  | nil => rfl
  | cons hfst _ ih => rw [List.map_cons, List.map_cons, hstep _ _ hfst, ih]

/-- A loop of checks succeeds when each of them does. -/
theorem forM_ok_iff {f : α → Except ε Unit} {xs : List α} :
    xs.forM f = .ok () ↔ ∀ x ∈ xs, f x = .ok () := by
  induction xs with
  | nil => simp [pure, Except.pure]
  | cons x rest ih =>
    have hcons : (x :: rest).forM f = f x >>= fun _ => rest.forM f := rfl
    rw [hcons, bind_ok_iff, List.forall_mem_cons]
    constructor
    · rintro ⟨_, hfst, hrest⟩
      exact ⟨hfst, ih.mp hrest⟩
    · rintro ⟨hfst, hrest⟩
      exact ⟨_, hfst, ih.mpr hrest⟩

theorem foldlM_invariant {P : β → Prop} {f : β → α → Except ε β} {xs : List α}
    {start result : β} (h : xs.foldlM f start = .ok result) (hstart : P start)
    (hstep : ∀ before x after, P before → f before x = .ok after → P after) : P result := by
  induction xs generalizing start with
  | nil =>
    cases h
    exact hstart
  | cons x rest ih =>
    rw [List.foldlM_cons, bind_ok_iff] at h
    obtain ⟨after, hfst, hrest⟩ := h
    exact ih hrest (hstep start x after hstart hfst)

/-! ## What a computation can raise -/

/-- Every error of the computation satisfies the predicate. -/
def Raises (P : ε → Prop) (result : Except ε α) : Prop :=
  ∀ error, result = .error error → P error

section Raises

variable {P : ε → Prop}

theorem raises_ok (value : α) : Raises P (.ok value : Except ε α) := by
  intro error h
  cases h

theorem raises_error {error : ε} (h : P error) : Raises P (.error error : Except ε α) := by
  intro other ho
  cases ho
  exact h

theorem Raises.mono {Q : ε → Prop} {result : Except ε α} (h : Raises P result)
    (himp : ∀ error, P error → Q error) : Raises Q result := by
  intro error herr
  exact himp error (h error herr)

theorem Raises.bind {first : Except ε α} {next : α → Except ε β} (h : Raises P first)
    (hnext : ∀ value, first = .ok value → Raises P (next value)) : Raises P (first >>= next) := by
  cases first with
  | error error => exact raises_error (h error rfl)
  | ok value => exact hnext value rfl

theorem raises_raiseFirst {checks : List (Bool × ε)} (h : ∀ check ∈ checks, P check.2) :
    Raises P (raiseFirst checks) := by
  intro error herr
  exact h _ (raiseFirst_error herr)

theorem Raises.guard {checks : List (Bool × ε)} {next : Unit → Except ε β}
    (h : ∀ check ∈ checks, P check.2) (hnext : Raises P (next ())) :
    Raises P (raiseFirst checks >>= next) :=
  (raises_raiseFirst h).bind fun _ _ => hnext

/-- A check whose own error is in the predicate says nothing; any other one must
not fire. -/
theorem raises_guard_cons {cond : Bool} {error : ε} {checks : List (Bool × ε)}
    {next : Unit → Except ε β} :
    Raises P (raiseFirst ((cond, error) :: checks) >>= next) ↔
      (cond = true → P error) ∧
        (cond = false → Raises P (raiseFirst checks >>= next)) := by
  cases cond with
  | true => exact ⟨fun h => ⟨fun _ => h error rfl, nofun⟩, fun h => raises_error (h.1 rfl)⟩
  | false => exact ⟨fun h => ⟨nofun, fun _ => h⟩, fun h => h.2 rfl⟩

theorem raises_mapM {f : α → Except ε β} {xs : List α} (h : ∀ x ∈ xs, Raises P (f x)) :
    Raises P (xs.mapM f) := by
  induction xs with
  | nil => exact raises_ok []
  | cons x rest ih =>
    rw [List.mapM_cons]
    apply (h x (by simp)).bind
    intro first _
    apply (ih fun other ho => h other (by simp [ho])).bind
    intro os _
    exact raises_ok _

theorem raises_forM {f : α → Except ε Unit} {xs : List α} (h : ∀ x ∈ xs, Raises P (f x)) :
    Raises P (xs.forM f) := by
  induction xs with
  | nil => exact raises_ok ()
  | cons x rest ih =>
    apply (h x (by simp)).bind
    intro _ _
    exact ih fun other ho => h other (by simp [ho])

theorem raises_foldlM {f : β → α → Except ε β} {xs : List α} (start : β)
    (h : ∀ before x, Raises P (f before x)) : Raises P (xs.foldlM f start) := by
  induction xs generalizing start with
  | nil => exact raises_ok start
  | cons x rest ih =>
    rw [List.foldlM_cons]
    exact (h start x).bind fun after _ => ih after

theorem raises_mapError {ε' : Type} {P : ε' → Prop} {rename : ε → ε'} {first : Except ε α}
    (h : Raises (fun error => P (rename error)) first) : Raises P (first.mapError rename) := by
  cases first with
  | error error => exact raises_error (h error rfl)
  | ok value => exact raises_ok value

end Raises

end TamForge.ProofSupport
