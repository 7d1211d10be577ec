import RouteAudit.Json.Reader

/-! # Reading JSON from bytes

Bytes that are UTF-8 are read as the text that they write. A byte that writes no
character breaks the string around it, as a surrogate without a partner does: the
string may be skipped, but it is no text. Outside a string such a byte is refused.
-/

namespace RouteAudit.Json

/-- What stands for a byte that writes no character. Its first character is refused
outside a string and after a backslash, and the low surrogate behind that has no
partner in front of it. -/
def brokenByte : List Char := "\uFFFD\\uDC00".toList

/-- The text of bytes from an index on, where each byte that writes no character is
replaced on its own, so that no byte behind it is lost. -/
def textFrom (bytes : ByteArray) (index : Nat) : List Char :=
  if index < bytes.size then
    match bytes.utf8DecodeChar? index with
    | some c => c :: textFrom bytes (index + c.utf8Size)
    | none => brokenByte ++ textFrom bytes (index + 1)
  else []
termination_by bytes.size - index
decreasing_by
  · have := c.utf8Size_pos
    omega
  · omega

/-- The value that bytes write. -/
def parseBytes? (bytes : ByteArray) : Option Json :=
  match String.fromUTF8? bytes with
  | some text => parse? text
  | none => parse? (String.ofList (textFrom bytes 0))

end RouteAudit.Json
