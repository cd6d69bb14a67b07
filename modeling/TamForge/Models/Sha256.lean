import Mathlib.Algebra.Order.Ring.Int
import Mathlib.Data.List.Basic

/-!
# SHA-256

`hashlib.sha256` on a byte string.  Nothing is proved about the function: two
values are compared by their digests where the source compares digests.
-/

namespace TamForge.Models

abbrev Bytes := List UInt8

/-- A digest; its text is 64 lowercase hexadecimal characters. -/
abbrev Digest := BitVec 256

namespace Sha256

abbrev Word := BitVec 32

def roundConstants : List Word :=
  [0x428a2f98#32, 0x71374491#32, 0xb5c0fbcf#32, 0xe9b5dba5#32, 0x3956c25b#32, 0x59f111f1#32,
   0x923f82a4#32, 0xab1c5ed5#32, 0xd807aa98#32, 0x12835b01#32, 0x243185be#32, 0x550c7dc3#32,
   0x72be5d74#32, 0x80deb1fe#32, 0x9bdc06a7#32, 0xc19bf174#32, 0xe49b69c1#32, 0xefbe4786#32,
   0x0fc19dc6#32, 0x240ca1cc#32, 0x2de92c6f#32, 0x4a7484aa#32, 0x5cb0a9dc#32, 0x76f988da#32,
   0x983e5152#32, 0xa831c66d#32, 0xb00327c8#32, 0xbf597fc7#32, 0xc6e00bf3#32, 0xd5a79147#32,
   0x06ca6351#32, 0x14292967#32, 0x27b70a85#32, 0x2e1b2138#32, 0x4d2c6dfc#32, 0x53380d13#32,
   0x650a7354#32, 0x766a0abb#32, 0x81c2c92e#32, 0x92722c85#32, 0xa2bfe8a1#32, 0xa81a664b#32,
   0xc24b8b70#32, 0xc76c51a3#32, 0xd192e819#32, 0xd6990624#32, 0xf40e3585#32, 0x106aa070#32,
   0x19a4c116#32, 0x1e376c08#32, 0x2748774c#32, 0x34b0bcb5#32, 0x391c0cb3#32, 0x4ed8aa4a#32,
   0x5b9cca4f#32, 0x682e6ff3#32, 0x748f82ee#32, 0x78a5636f#32, 0x84c87814#32, 0x8cc70208#32,
   0x90befffa#32, 0xa4506ceb#32, 0xbef9a3f7#32, 0xc67178f2#32]

structure Registers where
  a : Word
  b : Word
  c : Word
  d : Word
  e : Word
  f : Word
  g : Word
  h : Word

def initial : Registers :=
  ⟨0x6a09e667#32, 0xbb67ae85#32, 0x3c6ef372#32, 0xa54ff53a#32, 0x510e527f#32, 0x9b05688c#32,
   0x1f83d9ab#32, 0x5be0cd19#32⟩

def smallSigma0 (x : Word) : Word := x.rotateRight 7 ^^^ x.rotateRight 18 ^^^ (x >>> 3)

def smallSigma1 (x : Word) : Word := x.rotateRight 17 ^^^ x.rotateRight 19 ^^^ (x >>> 10)

def bigSigma0 (x : Word) : Word := x.rotateRight 2 ^^^ x.rotateRight 13 ^^^ x.rotateRight 22

def bigSigma1 (x : Word) : Word := x.rotateRight 6 ^^^ x.rotateRight 11 ^^^ x.rotateRight 25

def choose (x y z : Word) : Word := (x &&& y) ^^^ (~~~x &&& z)

def majority (x y z : Word) : Word := (x &&& y) ^^^ (x &&& z) ^^^ (y &&& z)

def schedule : Nat → List Word → List Word
  | 0, _ => []
  | remaining + 1, window =>
    match window with
    | w0 :: w1 :: rest =>
      let word := w0 + smallSigma0 w1 + (rest.getD 7 0) + smallSigma1 (rest.getD 12 0)
      w0 :: schedule remaining (w1 :: rest ++ [word])
    | _ => []

def round (r : Registers) (constant word : Word) : Registers :=
  let t1 := r.h + bigSigma1 r.e + choose r.e r.f r.g + constant + word
  let t2 := bigSigma0 r.a + majority r.a r.b r.c
  ⟨t1 + t2, r.a, r.b, r.c, r.d + t1, r.e, r.f, r.g⟩

def compress (r : Registers) (block : List Word) : Registers :=
  let s := (roundConstants.zip (schedule 64 block)).foldl
    (fun state item => round state item.1 item.2) r
  ⟨r.a + s.a, r.b + s.b, r.c + s.c, r.d + s.d, r.e + s.e, r.f + s.f, r.g + s.g, r.h + s.h⟩

def words : Bytes → List Word
  | b0 :: b1 :: b2 :: b3 :: rest =>
    (b0.toBitVec ++ b1.toBitVec ++ b2.toBitVec ++ b3.toBitVec : BitVec 32) :: words rest
  | _ => []

def padding (length : Nat) : Bytes :=
  let zeros := (119 - length % 64) % 64
  0x80 :: List.replicate zeros 0 ++
    (List.range 8).map fun i => UInt8.ofNat (length * 8 / 256 ^ (7 - i))

def blocks : Nat → List Word → List (List Word)
  | 0, _ => []
  | count + 1, items => items.take 16 :: blocks count (items.drop 16)

def registers (message : Bytes) : Registers :=
  let padded := words (message ++ padding message.length)
  (blocks (padded.length / 16) padded).foldl compress initial

end Sha256

/-- `hashlib.sha256(message)` -/
@[irreducible] def sha256 (message : Bytes) : Digest :=
  let r := Sha256.registers message
  r.a ++ r.b ++ r.c ++ r.d ++ r.e ++ r.f ++ r.g ++ r.h

example : sha256 [0x61, 0x62, 0x63] =
    0xba7816bf8f01cfea414140de5dae2223b00361a396177a9cb410ff61f20015ad#256 := by
  decide +kernel

end TamForge.Models
