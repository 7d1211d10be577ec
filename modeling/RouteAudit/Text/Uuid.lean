import RouteAudit.Text.Hex

/-! # Random identities

Sixteen random bytes make an identity of the fourth kind: thirty-two hexadecimal
digits in five groups, where six bits are set to say which kind it is.
-/

namespace RouteAudit.Text

/-- The bytes with the bits that say the kind. -/
def markedBytes : List UInt8 → List UInt8 :=
  fun bytes => (bytes.modify 6 fun b => b &&& 0x0f ||| 0x40).modify 8 fun b => b &&& 0x3f ||| 0x80

/-- The identity that random bytes make. -/
def uuid (bytes : List UInt8) : String :=
  let digits := (markedBytes bytes).flatMap fun b => hexDigits 2 b.toNat
  let group (first count : Nat) := String.ofList ((digits.drop first).take count)
  "-".intercalate [group 0 8, group 8 4, group 12 4, group 16 4, group 20 12]

end RouteAudit.Text
