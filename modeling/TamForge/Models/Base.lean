import Mathlib.Algebra.Order.Ring.Int
import Mathlib.Data.Int.Order.Basic

/-!
# Values shared by every table

Timestamps, database integers and the closed text patterns that the schemas
and the `CHECK` constraints use.
-/

namespace TamForge.Models

/-- A timezone-aware `datetime`, as microseconds since the Unix epoch.  Aware
datetimes compare by the instant they denote, whatever their offsets. -/
abbrev Instant := Int

/-- `datetime.max` in UTC, 9999-12-31T23:59:59.999999. -/
def datetimeMax : Instant := 253402300799999999

/-- The largest PostgreSQL `BIGINT`. -/
def bigintMax : Nat := 2 ^ 63 - 1

theorem one_le_bigintMax : 1 ≤ bigintMax := by decide

theorem two_le_bigintMax : 2 ≤ bigintMax := by decide

theorem three_le_bigintMax : 3 ≤ bigintMax := by decide

theorem seven_le_bigintMax : 7 ≤ bigintMax := by decide

theorem id_three_pos : 0 < 3 := by decide

theorem id_seven_pos : 0 < 7 := by decide

/-- `timedelta(seconds=n)` in microseconds. -/
def seconds (n : Nat) : Int := (n : Int) * 1000000

theorem seconds_nonneg (n : Nat) : 0 ≤ seconds n := by
  unfold seconds
  omega

theorem seconds_pos {n : Nat} (hn : 0 < n) : 0 < seconds n := by
  unfold seconds
  omega

/-- A pattern `^[head][tail]{0,limit}$`. -/
def matchesPattern (head tail : Char → Bool) (limit : Nat) (text : String) : Bool :=
  match text.toList with
  | [] => false
  | first :: rest => head first && rest.all tail && decide (rest.length ≤ limit)

/-- `[A-Za-z0-9._:-]` -/
def isKeyChar (c : Char) : Bool :=
  c.isAlphanum || c == '.' || c == '_' || c == ':' || c == '-'

/-- `[a-z0-9_]` -/
def isSlugChar (c : Char) : Bool :=
  c.isLower || c.isDigit || c == '_'

/-- `[a-z0-9._-]` -/
def isVersionChar (c : Char) : Bool :=
  c.isLower || c.isDigit || c == '.' || c == '_' || c == '-'

/-- `^[A-Za-z0-9][A-Za-z0-9._:-]{0,127}$` -/
def safeKey : String → Bool :=
  matchesPattern Char.isAlphanum isKeyChar 127

/-- `^[a-z][a-z0-9_]{0,63}$` -/
def slug : String → Bool :=
  matchesPattern Char.isLower isSlugChar 63

/-- `^[a-z0-9][a-z0-9._-]{0,63}$` -/
def versionKey : String → Bool :=
  matchesPattern (fun c => c.isLower || c.isDigit) isVersionChar 63

/-- Whitespace as `str.strip` sees it. -/
def isSpace (c : Char) : Bool :=
  let n := c.toNat
  (decide (9 ≤ n) && decide (n ≤ 13)) || (decide (28 ≤ n) && decide (n ≤ 32)) ||
    (decide (8192 ≤ n) && decide (n ≤ 8202)) ||
    [133, 160, 5760, 8232, 8233, 8239, 8287, 12288].contains n

/-- `not value.strip()` -/
def isBlank (text : String) : Bool :=
  text.toList.all isSpace

/-- `btrim(value) = ''`: PostgreSQL trims the space character only. -/
def isBtrimBlank (text : String) : Bool :=
  text.toList.all fun c => c == ' '

/-- A calendar date as its proleptic Gregorian ordinal; day 1 is a Monday. -/
abbrev Date := Nat

/-- `date.weekday()`: Monday is 0, Sunday is 6. -/
def weekday (date : Date) : Nat :=
  (date + 6) % 7

end TamForge.Models
