import TamForge.Models.Base
import TamForge.ProofSupport.Keys

/-!
# Calendar dates as text

`date.isoformat()` of an ordinal, through the year, month and day that the
standard library computes from it.
-/

namespace TamForge.Models

open ProofSupport

/-- `date.max`, 9999-12-31. -/
def dateMax : Date := 3652059

def isLeap (year : Nat) : Bool :=
  year % 4 == 0 && (year % 100 != 0 || year % 400 == 0)

/-- `_DAYS_BEFORE_MONTH` of a year that is not leap. -/
def daysBeforeMonthTable : List Nat :=
  [0, 0, 31, 59, 90, 120, 151, 181, 212, 243, 273, 304, 334]

def daysBeforeMonth (leap : Bool) (month : Nat) : Nat :=
  daysBeforeMonthTable.getD month 0 + if month > 2 ∧ leap then 1 else 0

def daysBeforeYear (year : Nat) : Nat :=
  let y := year - 1
  y * 365 + y / 4 - y / 100 + y / 400

def ymd2ord (year month day : Nat) : Date :=
  daysBeforeYear year + daysBeforeMonth (isLeap year) month + day

/-- The month and the day of the day `n` of a year, counted from zero: the
estimate of `_ord2ymd` and its correction. -/
def monthDay (leap : Bool) (n : Nat) : Nat × Nat :=
  let month := (n + 50) / 32
  if daysBeforeMonth leap month > n then
    (month - 1, n - daysBeforeMonth leap (month - 1) + 1)
  else
    (month, n - daysBeforeMonth leap month + 1)

def ord2ymd (date : Date) : Nat × Nat × Nat :=
  let n := date - 1
  let n400 := n / 146097
  let n := n % 146097
  let n100 := n / 36524
  let n := n % 36524
  let n4 := n / 1461
  let n := n % 1461
  let n1 := n / 365
  let n := n % 365
  let year := n400 * 400 + 1 + n100 * 100 + n4 * 4 + n1
  if n1 = 4 ∨ n100 = 4 then (year - 1, 12, 31)
  else (year, monthDay (n1 = 3 ∧ (n4 ≠ 24 ∨ n100 = 3)) n)

/-- `%0kd` -/
def zeroPad (width n : Nat) : String :=
  String.ofList (List.replicate (width - (toString n).length) '0') ++ toString n

def isoformat (date : Date) : String :=
  let (year, month, day) := ord2ymd date
  zeroPad 4 year ++ "-" ++ zeroPad 2 month ++ "-" ++ zeroPad 2 day

example : isoformat 739852 = "2026-08-24" := by decide

/-! ## The text determines the date -/

theorem monthDay_inverse : ∀ n < 366, ∀ leap : Bool, (n < 365 ∨ leap = true) →
    daysBeforeMonth leap (monthDay leap n).1 + (monthDay leap n).2 = n + 1 := by
  decide +kernel

/-- Whether a year is leap, from its places in the cycles of 400, 100 and 4 years. -/
theorem isLeap_cycles {a b c d : Nat} (hb : b ≤ 3) (hc : c ≤ 24) (hd : d ≤ 3) :
    isLeap (a * 400 + 1 + b * 100 + c * 4 + d) = decide (d = 3 ∧ (c ≠ 24 ∨ b = 3)) := by
  rw [Bool.eq_iff_iff]
  simp only [isLeap, Bool.and_eq_true, Bool.or_eq_true, beq_iff_eq, bne_iff_ne, ne_eq,
    decide_eq_true_eq]
  omega

theorem daysBeforeYear_cycles {a b c d : Nat} (hb : b ≤ 3) (hc : c ≤ 24) (hd : d ≤ 3) :
    daysBeforeYear (a * 400 + 1 + b * 100 + c * 4 + d) =
      a * 146097 + b * 36524 + c * 1461 + d * 365 := by
  simp only [daysBeforeYear]
  omega

/-- `_ymd2ord` inverts `_ord2ymd`. -/
theorem ymd2ord_ord2ymd {date : Date} (hdate : 0 < date) :
    ymd2ord (ord2ymd date).1 (ord2ymd date).2.1 (ord2ymd date).2.2 = date := by
  obtain ⟨n, rfl⟩ := Nat.exists_eq_succ_of_ne_zero (Nat.pos_iff_ne_zero.mp hdate)
  simp only [ord2ymd, Nat.succ_eq_add_one, Nat.add_sub_cancel]
  generalize ha : n / 146097 = a
  generalize hr : n % 146097 = r
  generalize hb : r / 36524 = b
  generalize hs : r % 36524 = s
  generalize hc : s / 1461 = c
  generalize ht : s % 1461 = t
  generalize hd : t / 365 = d
  generalize hu : t % 365 = u
  have hn : n = 146097 * a + r := by omega
  have hcentury : r = 36524 * b + s ∧ r < 146097 ∧ s < 36524 := by omega
  have hcycle : s = 1461 * c + t ∧ t < 1461 := by omega
  have hyear : t = 365 * d + u ∧ u < 365 := by omega
  by_cases hoverflow : d = 4 ∨ b = 4
  · -- the last day of a leap year that ends a cycle: its place overflows
    simp only [if_pos hoverflow]
    have hplace : ∃ b' c', b' ≤ 3 ∧ c' ≤ 24 ∧ (c' ≠ 24 ∨ b' = 3) ∧
        a * 400 + 1 + b * 100 + c * 4 + d - 1 = a * 400 + 1 + b' * 100 + c' * 4 + 3 ∧
        n = a * 146097 + b' * 36524 + c' * 1461 + 3 * 365 + 365 := by
      rcases hoverflow with hd4 | hb4
      · exact ⟨b, c, by omega⟩
      · exact ⟨3, 24, by omega⟩
    obtain ⟨b', c', hb3, hc24, hleap, hlast, hdays⟩ := hplace
    have hmonth : daysBeforeMonth true 12 = 335 := rfl
    have hflag : decide ((3 : Nat) = 3 ∧ (c' ≠ 24 ∨ b' = 3)) = true := by simp [hleap]
    rw [hlast, ymd2ord, isLeap_cycles hb3 hc24 (Nat.le_refl 3), hflag, hmonth,
      daysBeforeYear_cycles hb3 hc24 (Nat.le_refl 3)]
    change (_ : Nat) = n + 1
    omega
  · simp only [if_neg hoverflow]
    have hb3 : b ≤ 3 := by omega
    have hc24 : c ≤ 24 := by omega
    have hd3 : d ≤ 3 := by omega
    rw [ymd2ord, isLeap_cycles hb3 hc24 hd3, daysBeforeYear_cycles hb3 hc24 hd3, Nat.add_assoc,
      monthDay_inverse u (by omega) _ (Or.inl hyear.2)]
    change (_ : Nat) = n + 1
    omega

theorem isDigit_of_mem_zeroPad {width n : Nat} {c : Char} (hc : c ∈ (zeroPad width n).toList) :
    c.isDigit = true := by
  rw [zeroPad, String.toList_append, String.toList_ofList, List.mem_append] at hc
  rcases hc with hzero | hdigit
  · rw [List.eq_of_mem_replicate hzero]
    rfl
  · have hdigits : (toString n).toList = Nat.toDigits 10 n := Nat.toList_repr
    rw [hdigits] at hdigit
    exact Nat.isDigit_of_mem_toDigits (by decide) (by decide) hdigit

theorem zeroPad_inj {width n m : Nat} (h : (zeroPad width n).toList = (zeroPad width m).toList) :
    n = m := by
  have hval : ∀ k n : Nat, Nat.ofDigitChars 10
      (List.replicate k '0' ++ (toString n).toList) 0 = n := by
    intro k n
    have hdigits : (toString n).toList = Nat.toDigits 10 n := Nat.toList_repr
    induction k with
    | zero =>
      rw [List.replicate_zero, List.nil_append, hdigits]
      exact Nat.ofDigitChars_ten_toDigits
    | succ k ih =>
      rw [List.replicate_succ, List.cons_append, Nat.ofDigitChars_cons]
      exact ih
  have heq := congrArg (fun digits => Nat.ofDigitChars 10 digits 0) h
  simpa only [zeroPad, String.toList_append, String.toList_ofList, hval] using heq

theorem isoformat_toList (date : Date) :
    (isoformat date).toList = (zeroPad 4 (ord2ymd date).1).toList ++ '-' ::
      ((zeroPad 2 (ord2ymd date).2.1).toList ++ '-' ::
        (zeroPad 2 (ord2ymd date).2.2).toList) := by
  simp [isoformat]

theorem isoformat_inj {date other : Date} (hdate : 0 < date) (ho : 0 < other)
    (h : (isoformat date).toList = (isoformat other).toList) : date = other := by
  have hsep : ∀ width n : Nat, '-' ∉ (zeroPad width n).toList := by
    intro width n hmem
    have hdigit := isDigit_of_mem_zeroPad hmem
    cases hdigit
  rw [isoformat_toList, isoformat_toList] at h
  obtain ⟨hyear, hrest⟩ := Keys.append_sep_inj (hsep 4 _) (hsep 4 _) h
  obtain ⟨hmonth, hday⟩ := Keys.append_sep_inj (hsep 2 _) (hsep 2 _) hrest
  rw [← ymd2ord_ord2ymd hdate, ← ymd2ord_ord2ymd ho, zeroPad_inj hyear, zeroPad_inj hmonth,
    zeroPad_inj hday]

end TamForge.Models
