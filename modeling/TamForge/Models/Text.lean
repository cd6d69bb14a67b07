import TamForge.Models.Sha256

/-!
# Text

A `str` of the source is a list of code points.  It may hold surrogates, which
no `String` has and which no encoding accepts.
-/

namespace TamForge.Models

abbrev CodePoint := Fin 0x110000

instance codePoints_ne_zero : NeZero 0x110000 := ⟨by decide⟩

namespace CodePoint

def isAscii (c : CodePoint) : Bool := decide (c.val < 0x80)

def isSurrogate (c : CodePoint) : Bool :=
  decide (0xD800 ≤ c.val) && decide (c.val ≤ 0xDFFF)

def ofChar (c : Char) : CodePoint :=
  ⟨c.toNat, by
    have h := c.valid
    simp only [UInt32.isValidChar, Nat.isValidChar] at h
    change c.val.toNat < 0x110000
    omega⟩

/-- A character that is `c` for every `c` that is no surrogate. -/
def toChar (c : CodePoint) : Char := Char.ofNat c.val

/-- `[A-Za-z0-9]` -/
def isAsciiAlnum (c : CodePoint) : Bool :=
  (decide (0x30 ≤ c.val) && decide (c.val ≤ 0x39)) ||
    (decide (0x41 ≤ c.val) && decide (c.val ≤ 0x5A)) ||
    (decide (0x61 ≤ c.val) && decide (c.val ≤ 0x7A))

theorem isAscii_of_isAsciiAlnum {c : CodePoint} (h : c.isAsciiAlnum = true) :
    c.isAscii = true := by
  simp only [isAsciiAlnum, Bool.or_eq_true, Bool.and_eq_true, decide_eq_true_eq] at h
  simp only [isAscii, decide_eq_true_eq]
  omega

theorem not_isSurrogate_of_isAscii {c : CodePoint} (h : c.isAscii = true) :
    c.isSurrogate = false := by
  simp only [isAscii, decide_eq_true_eq] at h
  simp only [isSurrogate, Bool.and_eq_false_iff, decide_eq_false_iff_not]
  omega

def utf8 (c : CodePoint) : Bytes :=
  if c.val < 0x80 then [.ofNat c.val]
  else if c.val < 0x800 then [.ofNat (0xC0 + c.val / 0x40), .ofNat (0x80 + c.val % 0x40)]
  else if c.val < 0x10000 then
    [.ofNat (0xE0 + c.val / 0x1000), .ofNat (0x80 + c.val / 0x40 % 0x40),
      .ofNat (0x80 + c.val % 0x40)]
  else
    [.ofNat (0xF0 + c.val / 0x40000), .ofNat (0x80 + c.val / 0x1000 % 0x40),
      .ofNat (0x80 + c.val / 0x40 % 0x40), .ofNat (0x80 + c.val % 0x40)]

end CodePoint

/-- A `str`. -/
abbrev PyString := List CodePoint

namespace PyString

def ofString (text : String) : PyString := text.toList.map CodePoint.ofChar

def toText (text : PyString) : String := String.ofList (text.map CodePoint.toChar)

def isAscii (text : PyString) : Bool := text.all CodePoint.isAscii

/-- `str.encode("ascii")`; `none` is its `UnicodeEncodeError`. -/
def encodeAscii (text : PyString) : Option Bytes :=
  if text.isAscii then some (text.map fun c => .ofNat c.val) else none

/-- `str.encode("utf-8")`; `none` is its `UnicodeEncodeError`. -/
def encodeUtf8 (text : PyString) : Option Bytes :=
  if text.any CodePoint.isSurrogate then none else some (text.flatMap CodePoint.utf8)

end PyString

/-- `str.isalnum` of one character: on ASCII the letters and the digits, and no
surrogate.  Beyond ASCII it is left open. -/
structure IsAlnum where
  test : CodePoint → Bool
  ascii : ∀ c, c.isAscii = true → test c = c.isAsciiAlnum
  surrogate : ∀ c, c.isSurrogate = true → test c = false

end TamForge.Models
