import Stencil.Text.Quoted

/-!
# SHA-256

The 256-bit secure hash of a text, over the bytes of its encoding in UTF-8.  The message is padded
to a whole number of blocks of sixteen words; each block is stretched to sixty-four words and mixed
into eight working words.
-/

namespace Stencil.Digest

/-- The constants added in the sixty-four rounds. -/
def roundConstants : List UInt32 :=
  [0x428a2f98, 0x71374491, 0xb5c0fbcf, 0xe9b5dba5, 0x3956c25b, 0x59f111f1, 0x923f82a4, 0xab1c5ed5,
   0xd807aa98, 0x12835b01, 0x243185be, 0x550c7dc3, 0x72be5d74, 0x80deb1fe, 0x9bdc06a7, 0xc19bf174,
   0xe49b69c1, 0xefbe4786, 0x0fc19dc6, 0x240ca1cc, 0x2de92c6f, 0x4a7484aa, 0x5cb0a9dc, 0x76f988da,
   0x983e5152, 0xa831c66d, 0xb00327c8, 0xbf597fc7, 0xc6e00bf3, 0xd5a79147, 0x06ca6351, 0x14292967,
   0x27b70a85, 0x2e1b2138, 0x4d2c6dfc, 0x53380d13, 0x650a7354, 0x766a0abb, 0x81c2c92e, 0x92722c85,
   0xa2bfe8a1, 0xa81a664b, 0xc24b8b70, 0xc76c51a3, 0xd192e819, 0xd6990624, 0xf40e3585, 0x106aa070,
   0x19a4c116, 0x1e376c08, 0x2748774c, 0x34b0bcb5, 0x391c0cb3, 0x4ed8aa4a, 0x5b9cca4f, 0x682e6ff3,
   0x748f82ee, 0x78a5636f, 0x84c87814, 0x8cc70208, 0x90befffa, 0xa4506ceb, 0xbef9a3f7, 0xc67178f2]

structure Words where
  (a b c d e f g h : UInt32)

def Words.initial : Words :=
  ⟨0x6a09e667, 0xbb67ae85, 0x3c6ef372, 0xa54ff53a, 0x510e527f, 0x9b05688c, 0x1f83d9ab, 0x5be0cd19⟩

def Words.add (x y : Words) : Words :=
  ⟨x.a + y.a, x.b + y.b, x.c + y.c, x.d + y.d, x.e + y.e, x.f + y.f, x.g + y.g, x.h + y.h⟩

def Words.toList (x : Words) : List UInt32 := [x.a, x.b, x.c, x.d, x.e, x.f, x.g, x.h]

def turn (x : UInt32) (n : UInt32) : UInt32 := (x >>> n) ||| (x <<< (32 - n))

def Words.round (s : Words) (k w : UInt32) : Words :=
  let s1 := turn s.e 6 ^^^ turn s.e 11 ^^^ turn s.e 25
  let choice := (s.e &&& s.f) ^^^ ((s.e ^^^ 0xffffffff) &&& s.g)
  let t1 := s.h + s1 + choice + k + w
  let s0 := turn s.a 2 ^^^ turn s.a 13 ^^^ turn s.a 22
  let majority := (s.a &&& s.b) ^^^ (s.a &&& s.c) ^^^ (s.b &&& s.c)
  ⟨t1 + (s0 + majority), s.a, s.b, s.c, s.d + t1, s.e, s.f, s.g⟩

/-- The next word of a stretched block, from the sixteen before it, latest first. -/
def nextWord (recent : List UInt32) : UInt32 :=
  let w (i : Nat) : UInt32 := (recent[i]?).getD 0
  let s0 := turn (w 14) 7 ^^^ turn (w 14) 18 ^^^ (w 14 >>> 3)
  let s1 := turn (w 1) 17 ^^^ turn (w 1) 19 ^^^ (w 1 >>> 10)
  w 15 + s0 + w 6 + s1

def stretch : Nat → List UInt32 → List UInt32
  | 0, words => words
  | n + 1, words => stretch n (nextWord words :: words)

def Words.absorb (s : Words) (block : List UInt32) : Words :=
  let words := (stretch 48 block.reverse).reverse
  s.add ((roundConstants.zip words).foldl (fun s (k, w) => s.round k w) s)

def bytes : Nat → Nat → List Nat
  | 0, _ => []
  | n + 1, x => bytes n (x / 256) ++ [x % 256]

/-- The bytes of a message with a marker bit, zeros and the length of the message in bits. -/
def padded (message : List Nat) : List Nat :=
  let zeros := (64 - (message.length + 9) % 64) % 64
  message ++ 0x80 :: List.replicate zeros 0 ++ bytes 8 (8 * message.length)

def wordsOfBytes : List Nat → List UInt32
  | a :: b :: c :: d :: rest => (((a * 256 + b) * 256 + c) * 256 + d).toUInt32 :: wordsOfBytes rest
  | _ => []

def absorbAll : Nat → List UInt32 → Words → Words
  | 0, _, s => s
  | n + 1, words, s => absorbAll n (words.drop 16) (s.absorb (words.take 16))

def ofBytes (message : List Nat) : String :=
  let words := wordsOfBytes (padded message)
  let final := absorbAll (words.length / 16) words Words.initial
  String.ofList (final.toList.flatMap fun w => Text.hexDigits 8 w.toNat)

def sha256 (s : String) : String := ofBytes (s.toUTF8.toList.map UInt8.toNat)

end Stencil.Digest
