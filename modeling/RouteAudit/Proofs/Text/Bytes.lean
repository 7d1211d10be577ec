import Mathlib.Data.List.Basic
import Mathlib.Data.String.Basic

/-! # Texts and their bytes

Texts compare character by character, and their bytes in UTF-8 compare in the same way: of two
different characters the smaller one has an encoding that is smaller at the first byte that differs,
whatever follows. So texts in order are bytes in order, and the other way round.
-/

namespace RouteAudit.Text

/-- The bytes of a text in UTF-8. -/
def bytes (text : String) : List UInt8 := text.toUTF8.data.toList

theorem bytes_ofList (chars : List Char) :
    bytes (.ofList chars) = chars.flatMap String.utf8EncodeChar := by
  have hdata : (String.ofList chars).toUTF8 =
      (chars.flatMap String.utf8EncodeChar).toByteArray := rfl
  rw [bytes, hdata, List.data_toByteArray]

theorem toNat_lt (c : Char) : c.val.toNat < 0x110000 := by
  have hvalid := c.valid
  simp only [UInt32.isValidChar, Nat.isValidChar] at hvalid
  omega

/-- The encoding of the smaller character is the smaller one at the first byte that differs. -/
theorem encode_lt {c d : Char} (h : c < d) (xs ys : List UInt8) :
    String.utf8EncodeChar c ++ xs < String.utf8EncodeChar d ++ ys := by
  have hlt : c.val.toNat < d.val.toNat := h
  have hd := toNat_lt d
  unfold String.utf8EncodeChar
  dsimp only
  generalize c.val.toNat = m at hlt
  generalize d.val.toNat = n at hlt hd
  -- The digits one by one, so that the comparison sees how they go on from each other.
  have hthird (k : Nat) : k / 4096 = k / 64 / 64 := by omega
  have hfourth (k : Nat) : k / 262144 = k / 64 / 64 / 64 := by omega
  simp only [hthird, hfourth]
  split_ifs <;>
    simp only [List.cons_append, List.cons_lt_cons_iff, UInt8.lt_iff_toNat_lt, ← UInt8.toNat_inj,
      UInt8.toNat_ofNat'] <;>
    omega

theorem nil_lt_encode (c : Char) (xs : List UInt8) : [] < String.utf8EncodeChar c ++ xs := by
  unfold String.utf8EncodeChar
  dsimp only
  split_ifs <;> exact List.nil_lt_cons ..

theorem flatMap_encode_lt {first second : List Char} (h : first < second) :
    first.flatMap String.utf8EncodeChar < second.flatMap String.utf8EncodeChar := by
  induction first generalizing second with
  | nil =>
      cases second with
      | nil => exact absurd h (List.lt_irrefl _)
      | cons d second => exact nil_lt_encode d _
  | cons c first ih =>
      cases second with
      | nil => exact absurd h (List.not_lt_nil _)
      | cons d second =>
          rw [List.flatMap_cons, List.flatMap_cons]
          rcases List.cons_lt_cons_iff.mp h with hlt | ⟨rfl, hrest⟩
          · exact encode_lt hlt _ _
          · exact List.append_left_lt (ih hrest)

theorem bytes_lt {a b : String} (h : a < b) : bytes a < bytes b := by
  have hchars := flatMap_encode_lt (String.lt_iff.mp h)
  rwa [← bytes_ofList, ← bytes_ofList, String.ofList_toList, String.ofList_toList] at hchars

/-- Texts are in order exactly if their bytes are. -/
theorem lt_iff_bytes_lt {a b : String} : a < b ↔ bytes a < bytes b := by
  refine ⟨bytes_lt, fun h => ?_⟩
  rcases lt_trichotomy a b with hlt | rfl | hgt
  · exact hlt
  · exact absurd h (List.lt_irrefl _)
  · exact absurd (List.lt_trans h (bytes_lt hgt)) (List.lt_irrefl _)

end RouteAudit.Text
