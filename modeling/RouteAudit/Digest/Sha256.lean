/-! # The SHA-256 digest

The standard digest of a list of bytes, as eight words of 32 bits. The message is
padded to whole blocks of sixteen words; each block is stretched to sixty-four
words and stirred into the digest so far.
-/

namespace RouteAudit.Digest.Sha256

/-- The digest so far, or the one that is left at the end. -/
structure State where
  a : UInt32
  b : UInt32
  c : UInt32
  d : UInt32
  e : UInt32
  f : UInt32
  g : UInt32
  h : UInt32
  deriving Repr, BEq, DecidableEq

/-- The fractions of the square roots of the first eight primes. -/
def initial : State where
  a := 0x6a09e667
  b := 0xbb67ae85
  c := 0x3c6ef372
  d := 0xa54ff53a
  e := 0x510e527f
  f := 0x9b05688c
  g := 0x1f83d9ab
  h := 0x5be0cd19

/-- The fractions of the cube roots of the first sixty-four primes. -/
def constants : List UInt32 := [
  0x428a2f98, 0x71374491, 0xb5c0fbcf, 0xe9b5dba5, 0x3956c25b, 0x59f111f1, 0x923f82a4, 0xab1c5ed5,
  0xd807aa98, 0x12835b01, 0x243185be, 0x550c7dc3, 0x72be5d74, 0x80deb1fe, 0x9bdc06a7, 0xc19bf174,
  0xe49b69c1, 0xefbe4786, 0x0fc19dc6, 0x240ca1cc, 0x2de92c6f, 0x4a7484aa, 0x5cb0a9dc, 0x76f988da,
  0x983e5152, 0xa831c66d, 0xb00327c8, 0xbf597fc7, 0xc6e00bf3, 0xd5a79147, 0x06ca6351, 0x14292967,
  0x27b70a85, 0x2e1b2138, 0x4d2c6dfc, 0x53380d13, 0x650a7354, 0x766a0abb, 0x81c2c92e, 0x92722c85,
  0xa2bfe8a1, 0xa81a664b, 0xc24b8b70, 0xc76c51a3, 0xd192e819, 0xd6990624, 0xf40e3585, 0x106aa070,
  0x19a4c116, 0x1e376c08, 0x2748774c, 0x34b0bcb5, 0x391c0cb3, 0x4ed8aa4a, 0x5b9cca4f, 0x682e6ff3,
  0x748f82ee, 0x78a5636f, 0x84c87814, 0x8cc70208, 0x90befffa, 0xa4506ceb, 0xbef9a3f7, 0xc67178f2]

/-- The word turned to the right. -/
def rotated (word count : UInt32) : UInt32 :=
  (word >>> count) ||| (word <<< (32 - count))

/-- The word that follows sixteen words of the stretched block. -/
def nextWord (window : List UInt32) : UInt32 :=
  let word (i : Nat) := window.getD i 0
  let near := word 14
  let far := word 1
  word 0 + (rotated far 7 ^^^ rotated far 18 ^^^ (far >>> 3)) +
    word 9 + (rotated near 17 ^^^ rotated near 19 ^^^ (near >>> 10))

/-- So many words of the stretched block, where the window holds the next sixteen. -/
def stretch : (count : Nat) → (window : List UInt32) → List UInt32
  | 0, _ => []
  | count + 1, window => window.getD 0 0 :: stretch count (window.drop 1 ++ [nextWord window])

/-- One round, with a constant and a word. -/
def round (s : State) (constant word : UInt32) : State :=
  let high := rotated s.e 6 ^^^ rotated s.e 11 ^^^ rotated s.e 25
  let choice := (s.e &&& s.f) ^^^ (~~~s.e &&& s.g)
  let one := s.h + high + choice + constant + word
  let low := rotated s.a 2 ^^^ rotated s.a 13 ^^^ rotated s.a 22
  let majority := (s.a &&& s.b) ^^^ (s.a &&& s.c) ^^^ (s.b &&& s.c)
  ⟨one + low + majority, s.a, s.b, s.c, s.d + one, s.e, s.f, s.g⟩

/-- A block of sixteen words stirred in. -/
def compress (s : State) (block : List UInt32) : State :=
  let t := (constants.zip (stretch 64 block)).foldl
    (fun s (constant, word) => round s constant word) s
  ⟨s.a + t.a, s.b + t.b, s.c + t.c, s.d + t.d, s.e + t.e, s.f + t.f, s.g + t.g, s.h + t.h⟩

/-- So many blocks stirred in, one after another. -/
def compressBlocks : (blocks : Nat) → State → List UInt32 → State
  | 0, s, _ => s
  | blocks + 1, s, words => compressBlocks blocks (compress s (words.take 16)) (words.drop 16)

/-- Bytes in fours, the first byte of a word on top. -/
def wordsOf : List UInt8 → List UInt32
  | a :: b :: c :: d :: bytes =>
    (a.toUInt32 <<< 24 ||| b.toUInt32 <<< 16 ||| c.toUInt32 <<< 8 ||| d.toUInt32) :: wordsOf bytes
  | _ => []

/-- The last bytes of a number, as many as asked for, the top one first. -/
def bytesOf : (count : Nat) → Nat → List UInt8
  | 0, _ => []
  | count + 1, n => bytesOf count (n / 256) ++ [UInt8.ofNat n]

/-- What is put after a message of so many bytes: a one bit, zeros, and the length in
bits, so that the whole is a number of blocks. -/
def padding (length : Nat) : List UInt8 :=
  0x80 :: List.replicate ((119 - length % 64) % 64) 0 ++ bytesOf 8 (8 * length)

/-- The digest of a message. -/
def digest (message : List UInt8) : State :=
  let words := wordsOf (message ++ padding message.length)
  compressBlocks (words.length / 16) initial words

end RouteAudit.Digest.Sha256
