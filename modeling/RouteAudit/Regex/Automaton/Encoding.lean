import RouteAudit.Unicode.RangeTable

/-! # Code points as bytes

A code point is written in one to four bytes. A range of code points comes apart
into pieces of which each is written by one sequence of byte ranges, every choice
of bytes from them being a code point of the piece. `length_encode` ties the
number of bytes to that of a character; `any_cutBehind` and `any_cutBlocks` say
that cutting loses no code point and adds none.
-/

namespace RouteAudit.Regex.Automaton

open Unicode.RangeTable (inRange)

/-- The bytes of a code point. -/
def encode (code : Nat) : List Nat :=
  if code ≤ 0x7F then [code]
  else if code ≤ 0x7FF then [0xC0 + code / 64, 0x80 + code % 64]
  else if code ≤ 0xFFFF then [0xE0 + code / 4096, 0x80 + code / 64 % 64, 0x80 + code % 64]
  else [0xF0 + code / 262144, 0x80 + code / 4096 % 64, 0x80 + code / 64 % 64, 0x80 + code % 64]

/-- A character takes as many bytes as its code point. -/
theorem length_encode (c : Char) : (encode c.toNat).length = c.utf8Size := by
  have h (n : Nat) (hn : n < UInt32.size) : c.val ≤ UInt32.ofNatLT n hn ↔ c.toNat ≤ n := by
    rw [UInt32.le_iff_toNat_le, UInt32.toNat_ofNatLT]
    rfl
  simp only [Char.utf8Size, encode, h]
  split
  · rfl
  · split
    · rfl
    · split <;> rfl

/-- A range of bytes with both ends included. -/
structure ByteRange where
  first : Nat
  last : Nat
  deriving Repr, BEq, DecidableEq

/-- Cuts a range of code points behind a given one. -/
def cutBehind (code : Nat) (range : Nat × Nat) : List (Nat × Nat) :=
  if range.1 ≤ code ∧ code < range.2 then [(range.1, code), (code + 1, range.2)] else [range]

theorem any_cutBehind (code : Nat) (range : Nat × Nat) (n : Nat) :
    (cutBehind code range).any (inRange n) = inRange n range := by
  unfold cutBehind
  split
  · rw [Bool.eq_iff_iff]
    simp [inRange]
    omega
  · simp

/-- Cuts a range at blocks of `size` code points: what lies in a block that it covers
in part is kept apart from the blocks that it covers. -/
def cutBlocks (size : Nat) : Nat × Nat → List (Nat × Nat)
  | (first, last) =>
    if first / size = last / size then [(first, last)]
    else
      let covered := (first + size - 1) / size * size
      let beyond := (last + 1) / size * size
      (if first < covered then [(first, covered - 1)] else []) ++
        (if covered < beyond then [(covered, beyond - 1)] else []) ++
        (if beyond ≤ last then [(beyond, last)] else [])

theorem any_cutBlocks {size : Nat} (hsize : 0 < size) {range : Nat × Nat}
    (hrange : range.1 ≤ range.2) (n : Nat) :
    (cutBlocks size range).any (inRange n) = inRange n range := by
  obtain ⟨first, last⟩ := range
  simp only [cutBlocks]
  split
  · simp
  next hblocks =>
    have hup : first ≤ (first + size - 1) / size * size := by
      have := Nat.div_add_mod (first + size - 1) size
      have := Nat.mod_lt (first + size - 1) hsize
      rw [Nat.mul_comm]
      omega
    have hdown : (last + 1) / size * size ≤ last + 1 := Nat.div_mul_le_self _ _
    have hmiddle : (first + size - 1) / size * size ≤ (last + 1) / size * size := by
      apply Nat.mul_le_mul_right
      have hlt : first / size < last / size :=
        Nat.lt_of_le_of_ne (Nat.div_le_div_right hrange) hblocks
      calc (first + size - 1) / size ≤ (first + size) / size := Nat.div_le_div_right (by omega)
        _ = first / size + 1 := Nat.add_div_right first hsize
        _ ≤ last / size := hlt
        _ ≤ (last + 1) / size := Nat.div_le_div_right (by omega)
    generalize (first + size - 1) / size * size = covered at *
    generalize (last + 1) / size * size = beyond at *
    rw [Bool.eq_iff_iff]
    simp only [List.any_append, Bool.or_eq_true, inRange, Bool.and_eq_true, decide_eq_true_eq]
    (repeat' split) <;> simp [inRange] <;> omega

/-- Cuts a range of code points of more than one byte at the blocks whose members
differ in their last byte, in their last two and in their last three. -/
def cutBytes (range : Nat × Nat) : List (Nat × Nat) :=
  if range.1 ≤ 0x7F then [range]
  else ((cutBlocks 64 range).flatMap (cutBlocks 4096)).flatMap (cutBlocks 262144)

/-- The sequences of byte ranges that write a range of code points, in ascending order. -/
def sequences (range : Nat × Nat) : List (List ByteRange) :=
  let sameLength := ((cutBehind 0x7F range).flatMap (cutBehind 0x7FF)).flatMap (cutBehind 0xFFFF)
  (sameLength.flatMap cutBytes).map fun (first, last) =>
    List.zipWith ByteRange.mk (encode first) (encode last)

/-- Whether a code point is half of a pair, which no text has. -/
def isSurrogate (code : Nat) : Bool := 0xD800 ≤ code && code ≤ 0xDFFF

/-- The ranges of a table without the code points that no text has. -/
def scalarRanges (table : Unicode.RangeTable) : List (Nat × Nat) :=
  ((table.ranges.flatMap (cutBehind 0xD7FF)).flatMap (cutBehind 0xDFFF)).filter fun range =>
    !isSurrogate range.1

end RouteAudit.Regex.Automaton
