import TamForge.Models.Json
import TamForge.Models.Sha256

/-!
# Provenance JSON

`agents/hashing.py`: the canonical text of a value has sorted keys, plain
decimals and no whitespace, and a digest is taken of its UTF-8 bytes.  Where
the source raises `ValueError` the functions return nothing.
-/

namespace TamForge.Agents

open Models

/-! ## Numbers -/

/-- A finite `Decimal`: its coefficient without leading zeros and its exponent. -/
structure Decimal where
  negative : Bool
  coefficient : List Char
  exponent : Int

def digitsValue (digits : List Char) : Nat :=
  digits.foldl (fun value c => 10 * value + (c.toNat - 48)) 0

/-- The exponent after the digits, as `e`, a sign and digits. -/
def parseExponent : List Char → Option Int
  | [] => some 0
  | 'e' :: '-' :: digits =>
    if !digits.isEmpty && digits.all Char.isDigit then some (-digitsValue digits) else none
  | 'e' :: '+' :: digits =>
    if !digits.isEmpty && digits.all Char.isDigit then some (digitsValue digits) else none
  | _ => none

/-- `Decimal(str(value))`, or nothing where it is not finite. -/
def parseDecimal (text : List Char) : Option Decimal := do
  let negative := text.head? = some '-'
  let unsigned := if negative then text.drop 1 else text
  let (mantissa, scale) := unsigned.span fun c => c != 'e'
  let (whole, rest) := mantissa.span fun c => c != '.'
  let fraction := rest.drop 1
  let exponent ← parseExponent scale
  if (whole ++ fraction).isEmpty || !(whole ++ fraction).all Char.isDigit then none
  else some ⟨negative, (whole ++ fraction).dropWhile (· == '0'), exponent - fraction.length⟩

/-- `number.adjusted()`; zero has one digit. -/
def Decimal.adjusted (number : Decimal) : Int :=
  (max 1 number.coefficient.length : Nat) - 1 + number.exponent

/-- `format(number, "f")` without trailing zeros after the point. -/
def Decimal.plain (number : Decimal) : List Char :=
  let sign := if number.negative then ['-'] else []
  if 0 ≤ number.exponent then
    sign ++ number.coefficient ++ List.replicate number.exponent.toNat '0'
  else
    let places := (-number.exponent).toNat
    let digits :=
      List.replicate (places + 1 - number.coefficient.length) '0' ++ number.coefficient
    let whole := digits.take (digits.length - places)
    let fraction := ((digits.drop (digits.length - places)).reverse.dropWhile (· == '0')).reverse
    sign ++ whole ++ if fraction.isEmpty then [] else '.' :: fraction

def canonicalNumber (text : List Char) : Option (List Char) := do
  let number ← parseDecimal text
  if 1000 < number.adjusted.natAbs then none
  else if number.coefficient.isEmpty then some ['0']
  else some number.plain

/-! ## Values -/

/-- A character as `json.dumps(value, ensure_ascii=False)` writes it. -/
def escapePlain (c : Char) : List Char :=
  if c.toNat < 32 ∨ c = '"' ∨ c = '\\' then Json.escapeChar c else [c]

def canonicalString (text : String) : Option (List Char) :=
  if text.toList.contains '\x00' then none
  else some ('"' :: (text.toList.flatMap escapePlain ++ ['"']))

mutual

/-- `_canonical`, on a value whose dictionaries are sorted. -/
def canonicalText (depth : Nat) : Json → Option (List Char)
  | .null => if 64 < depth then none else some ['n', 'u', 'l', 'l']
  | .bool value =>
    if 64 < depth then none
    else some (if value then ['t', 'r', 'u', 'e'] else ['f', 'a', 'l', 's', 'e'])
  | .number text => if 64 < depth then none else canonicalNumber text.toList
  | .string value => if 64 < depth then none else canonicalString value
  | .array items => do
      if 64 < depth then none
      let texts ← canonicalItems (depth + 1) items
      some ('[' :: ([','].intercalate texts ++ [']']))
  | .object fields => do
      if 64 < depth then none
      let texts ← canonicalFields (depth + 1) fields
      some ('\x7b' :: ([','].intercalate texts ++ ['\x7d']))

def canonicalItems (depth : Nat) : List Json → Option (List (List Char))
  | [] => some []
  | item :: rest => do
      let text ← canonicalText depth item
      let texts ← canonicalItems depth rest
      some (text :: texts)

def canonicalFields (depth : Nat) : List (String × Json) → Option (List (List Char))
  | [] => some []
  | (key, value) :: rest => do
      if 64 < depth then none
      let name ← canonicalString key
      let text ← canonicalText depth value
      let texts ← canonicalFields depth rest
      some ((name ++ ':' :: text) :: texts)

end

def canonicalBytes (value : Json) (limit : Nat) : Option Bytes := do
  let text ← canonicalText 0 value.canonical
  let data := (String.ofList text).toUTF8.toList
  if limit < data.length then none else some data

example : canonicalNumber "0.9500".toList = some "0.95".toList := by decide

example : canonicalNumber "1e-05".toList = some "0.00001".toList := by decide

end TamForge.Agents
