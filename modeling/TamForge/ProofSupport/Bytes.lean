import Mathlib.Data.List.Basic

/-!
# Little-endian fields of a byte string

Numbers stored with their low byte first, read at an offset.  A read past the
end gives nothing.
-/

namespace TamForge.ProofSupport

/-- The number stored in these bytes, the low byte first. -/
def littleEndian : List UInt8 → Nat
  | [] => 0
  | byte :: rest => byte.toNat + 256 * littleEndian rest

/-- The number of `width` bytes at `offset`. -/
def readNumber (width offset : Nat) (bytes : List UInt8) : Option Nat :=
  if offset + width ≤ bytes.length then some (littleEndian ((bytes.drop offset).take width))
  else none

variable {width offset start n : Nat} {bytes more : List UInt8}

theorem exists_readNumber (h : offset + width ≤ bytes.length) :
    ∃ value, readNumber width offset bytes = some value :=
  ⟨_, if_pos h⟩

theorem le_length_of_readNumber (h : readNumber width offset bytes = some n) :
    offset + width ≤ bytes.length := by
  rw [readNumber] at h
  split at h
  · assumption
  · cases h

theorem readNumber_drop (hstart : start ≤ bytes.length) :
    readNumber width offset (bytes.drop start) = readNumber width (start + offset) bytes := by
  rw [readNumber, readNumber, List.length_drop, List.drop_drop]
  by_cases hfits : start + offset + width ≤ bytes.length
  · rw [if_pos hfits, if_pos (by omega)]
  · rw [if_neg hfits, if_neg (by omega)]

theorem readNumber_append (h : readNumber width offset bytes = some n) :
    readNumber width offset (bytes ++ more) = some n := by
  have hle := le_length_of_readNumber h
  rw [readNumber, if_pos hle] at h
  rw [readNumber, List.length_append, if_pos (by omega), List.drop_append_of_le_length (by omega),
    List.take_append_of_le_length (by rw [List.length_drop]; omega), h]

theorem readNumber_of_take {value : Nat}
    (h : readNumber width offset (bytes.take n) = some value) :
    readNumber width offset bytes = some value := by
  have hwhole : readNumber width offset (bytes.take n ++ bytes.drop n) = some value :=
    readNumber_append h
  rwa [List.take_append_drop] at hwhole

example : readNumber 2 1 [0x50, 0x4B, 0x05, 0x06] = some 0x054B := by decide

end TamForge.ProofSupport
