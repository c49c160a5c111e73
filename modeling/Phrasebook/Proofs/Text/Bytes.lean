import Mathlib.Data.String.Basic
import Mathlib.Tactic.SplitIfs

/-!
# Order of bytes

Texts are in the order of the bytes that encode them.
-/

namespace Phrasebook.Text

def bytes (text : String) : List UInt8 := text.toUTF8.data.toList

theorem bytes_eq_flatMap (text : String) :
    bytes text = text.toList.flatMap String.utf8EncodeChar := by
  rw [bytes, String.toUTF8_eq_toByteArray, ← String.utf8Encode_toList, List.utf8Encode]
  simp

/-- The first byte in which two characters differ tells them apart as they are ordered, whatever
follows them. -/
theorem utf8EncodeChar_append_lt {c d : Char} (hlt : c < d) (rest other : List UInt8) :
    String.utf8EncodeChar c ++ rest < String.utf8EncodeChar d ++ other := by
  have hcode : c.val.toNat < d.val.toNat := hlt
  have hbound : d.val.toNat < 1114112 := by
    have hvalid := d.valid
    unfold UInt32.isValidChar Nat.isValidChar at hvalid
    omega
  simp only [String.utf8EncodeChar]
  generalize c.val.toNat = m at *
  generalize d.val.toNat = n at *
  -- More bytes begin with a greater one; as many are compared digit by digit in base 64.
  split_ifs <;>
    simp only [List.cons_append, List.nil_append, List.cons_lt_cons_iff, UInt8.lt_iff_toNat_lt,
      ← UInt8.toNat_inj, UInt8.toNat_ofNat'] <;>
    simp (disch := omega) only [Nat.mod_eq_of_lt] <;> omega

theorem flatMap_utf8EncodeChar_lt {cs ds : List Char} (hlt : cs < ds) :
    cs.flatMap String.utf8EncodeChar < ds.flatMap String.utf8EncodeChar := by
  induction hlt with
  | nil =>
      obtain ⟨byte, rest, hbytes⟩ := List.exists_cons_of_ne_nil String.utf8EncodeChar_ne_nil
      rw [List.flatMap_nil, List.flatMap_cons, hbytes]
      exact List.nil_lt_cons _ _
  | rel hcd => exact utf8EncodeChar_append_lt hcd _ _
  | cons _ ih =>
      rw [List.flatMap_cons, List.flatMap_cons]
      exact List.append_left_lt ih

theorem lt_iff_bytes_lt {text other : String} : text < other ↔ bytes text < bytes other := by
  have hlt {a b : String} (hab : a < b) : bytes a < bytes b := by
    rw [bytes_eq_flatMap, bytes_eq_flatMap]
    exact flatMap_utf8EncodeChar_lt (String.lt_iff_toList_lt.1 hab)
  refine ⟨hlt, fun hbytes => ?_⟩
  rcases lt_trichotomy text other with h | rfl | h
  · exact h
  · exact (List.lt_irrefl _ hbytes).elim
  · exact (List.lt_asymm hbytes (hlt h)).elim

end Phrasebook.Text
