import Agenda.Text.Digit

/-!
SHA-256 of a byte string, in plain lists and 32-bit words. A digest is eight words; its text is
sixty-four lower-case hexadecimal digits.
-/

namespace Agenda

structure Sha256 where
  a : UInt32
  b : UInt32
  c : UInt32
  d : UInt32
  e : UInt32
  f : UInt32
  g : UInt32
  h : UInt32
deriving DecidableEq, Repr

namespace Sha256

def initial : Sha256 where
  a := 0x6a09e667
  b := 0xbb67ae85
  c := 0x3c6ef372
  d := 0xa54ff53a
  e := 0x510e527f
  f := 0x9b05688c
  g := 0x1f83d9ab
  h := 0x5be0cd19

/-- One constant for each round: the first bits of the cube roots of the first primes. -/
def roundConstants : List UInt32 :=
  [0x428a2f98, 0x71374491, 0xb5c0fbcf, 0xe9b5dba5, 0x3956c25b, 0x59f111f1, 0x923f82a4, 0xab1c5ed5,
   0xd807aa98, 0x12835b01, 0x243185be, 0x550c7dc3, 0x72be5d74, 0x80deb1fe, 0x9bdc06a7, 0xc19bf174,
   0xe49b69c1, 0xefbe4786, 0x0fc19dc6, 0x240ca1cc, 0x2de92c6f, 0x4a7484aa, 0x5cb0a9dc, 0x76f988da,
   0x983e5152, 0xa831c66d, 0xb00327c8, 0xbf597fc7, 0xc6e00bf3, 0xd5a79147, 0x06ca6351, 0x14292967,
   0x27b70a85, 0x2e1b2138, 0x4d2c6dfc, 0x53380d13, 0x650a7354, 0x766a0abb, 0x81c2c92e, 0x92722c85,
   0xa2bfe8a1, 0xa81a664b, 0xc24b8b70, 0xc76c51a3, 0xd192e819, 0xd6990624, 0xf40e3585, 0x106aa070,
   0x19a4c116, 0x1e376c08, 0x2748774c, 0x34b0bcb5, 0x391c0cb3, 0x4ed8aa4a, 0x5b9cca4f, 0x682e6ff3,
   0x748f82ee, 0x78a5636f, 0x84c87814, 0x8cc70208, 0x90befffa, 0xa4506ceb, 0xbef9a3f7, 0xc67178f2]

def rotateRight (word : UInt32) (count : UInt32) : UInt32 :=
  (word >>> count) ||| (word <<< (32 - count))

def mixOld (word : UInt32) : UInt32 :=
  rotateRight word 7 ^^^ rotateRight word 18 ^^^ (word >>> 3)

def mixNew (word : UInt32) : UInt32 :=
  rotateRight word 17 ^^^ rotateRight word 19 ^^^ (word >>> 10)

def extend : Nat → List UInt32 → List UInt32
  | 0, newestFirst => newestFirst
  | count + 1, newestFirst =>
      let word := mixNew (newestFirst.getD 1 0) + newestFirst.getD 6 0 +
        mixOld (newestFirst.getD 14 0) + newestFirst.getD 15 0
      extend count (word :: newestFirst)

def schedule (block : List UInt32) : List UInt32 :=
  (extend 48 block.reverse).reverse

def round (state : Sha256) (word constant : UInt32) : Sha256 :=
  let mixedE := rotateRight state.e 6 ^^^ rotateRight state.e 11 ^^^ rotateRight state.e 25
  let choice := (state.e &&& state.f) ^^^ ((~~~state.e) &&& state.g)
  let first := state.h + mixedE + choice + constant + word
  let mixedA := rotateRight state.a 2 ^^^ rotateRight state.a 13 ^^^ rotateRight state.a 22
  let majority := (state.a &&& state.b) ^^^ (state.a &&& state.c) ^^^ (state.b &&& state.c)
  { a := first + mixedA + majority
    b := state.a
    c := state.b
    d := state.c
    e := state.d + first
    f := state.e
    g := state.f
    h := state.g }

def add (left right : Sha256) : Sha256 where
  a := left.a + right.a
  b := left.b + right.b
  c := left.c + right.c
  d := left.d + right.d
  e := left.e + right.e
  f := left.f + right.f
  g := left.g + right.g
  h := left.h + right.h

def compress (state : Sha256) (block : List UInt32) : Sha256 :=
  let rounds := (schedule block).zip roundConstants
  state.add (rounds.foldl (fun working pair => round working pair.1 pair.2) state)

/-- The message, one bit, zeros up to eight bytes before the end of a block, and the message's
length in bits. -/
def pad (message : List UInt8) : List UInt8 :=
  let zeros := (119 - message.length % 64) % 64
  let bits := message.length * 8
  let tail := [56, 48, 40, 32, 24, 16, 8, 0].map fun shift => (bits >>> shift).toUInt8
  message ++ 0x80 :: (List.replicate zeros 0 ++ tail)

def words : List UInt8 → List UInt32
  | a :: b :: c :: d :: rest =>
      ((a.toUInt32 <<< 24) ||| (b.toUInt32 <<< 16) ||| (c.toUInt32 <<< 8) ||| d.toUInt32) ::
        words rest
  | _ => []

def blocks : Nat → List UInt32 → List (List UInt32)
  | 0, _ => []
  | count + 1, message => message.take 16 :: blocks count (message.drop 16)

def digest (message : List UInt8) : Sha256 :=
  let padded := pad message
  (blocks (padded.length / 64) (words padded)).foldl compress initial

def ofText (text : String) : Sha256 :=
  digest text.toUTF8.toList

def toList (state : Sha256) : List UInt32 :=
  [state.a, state.b, state.c, state.d, state.e, state.f, state.g, state.h]

def firstByte (state : Sha256) : Nat :=
  (state.a >>> 24).toNat

def wordHex (word : UInt32) : List Char :=
  [268435456, 16777216, 1048576, 65536, 4096, 256, 16, 1].map fun unit =>
    Text.hexDigit (word.toNat / unit % 16)

def hex (state : Sha256) : String :=
  String.ofList (state.toList.flatMap wordHex)

end Sha256

end Agenda
