import Mathlib.Logic.Function.Basic
import Phrasebook.Draw.Site

/-!
# The bytes of a site

The seed state and the steps of a path are written word by word, each in four bytes, so the
bytes that a site is known by give back the state and the path.
-/

namespace Phrasebook.Draw

def wordBytes (word : UInt32) : List UInt8 :=
  [word.toUInt8, (word >>> 8).toUInt8, (word >>> 16).toUInt8, (word >>> 24).toUInt8]

theorem toList_pushWord (bytes : ByteArray) (word : UInt32) :
    (pushWord bytes word).data.toList = bytes.data.toList ++ wordBytes word := by
  simp [pushWord, wordBytes]

theorem toList_foldl_pushWord (bytes : ByteArray) (words : List UInt32) :
    (words.foldl pushWord bytes).data.toList =
      bytes.data.toList ++ words.flatMap wordBytes := by
  induction words generalizing bytes with
  | nil => simp
  | cons word words ih =>
      rw [List.foldl_cons, ih, toList_pushWord, List.flatMap_cons, List.append_assoc]

theorem toList_siteKey (state : UInt64) (path : Path) :
    (siteKey state path).data.toList =
      wordBytes state.toUInt32 ++ wordBytes (state >>> 32).toUInt32 ++
        path.toList.flatMap wordBytes := by
  unfold siteKey
  rw [← Array.foldl_toList, toList_foldl_pushWord, toList_pushWord, toList_pushWord]
  rfl

theorem wordBytes_injective : Function.Injective wordBytes := by
  intro word other hbytes
  simp only [wordBytes, List.cons.injEq, and_true] at hbytes
  obtain ⟨h0, h1, h2, h3⟩ := hbytes
  apply UInt32.toNat_inj.1
  have hb0 := congrArg UInt8.toNat h0
  have hb1 := congrArg UInt8.toNat h1
  have hb2 := congrArg UInt8.toNat h2
  have hb3 := congrArg UInt8.toNat h3
  simp only [UInt32.toNat_toUInt8, Nat.reducePow, UInt32.toNat_shiftRight, UInt32.reduceToNat,
    Nat.reduceMod, Nat.shiftRight_eq_div_pow] at hb0 hb1 hb2 hb3
  have hword := word.toNat_lt
  have hother := other.toNat_lt
  omega

theorem flatMap_wordBytes_injective : Function.Injective (List.flatMap wordBytes) := by
  intro words
  induction words with
  | nil =>
      intro others hbytes
      cases others with
      | nil => rfl
      | cons other others => simp [wordBytes] at hbytes
  | cons word words ih =>
      intro others hbytes
      cases others with
      | nil => simp [wordBytes] at hbytes
      | cons other others =>
          rw [List.flatMap_cons, List.flatMap_cons] at hbytes
          obtain ⟨hword, hwords⟩ := List.append_inj hbytes rfl
          rw [wordBytes_injective hword, ih hwords]

/-- A site is known by no other bytes, and no other site by the same. -/
theorem siteKey_injective : Function.Injective2 siteKey := by
  intro state state' path path' hkey
  have hbytes := congrArg (fun key : ByteArray => key.data.toList) hkey
  rw [toList_siteKey, toList_siteKey] at hbytes
  obtain ⟨hstate, hpath⟩ := List.append_inj hbytes rfl
  obtain ⟨hlow, hhigh⟩ := List.append_inj hstate rfl
  constructor
  · apply UInt64.toNat_inj.1
    have hlow' := congrArg UInt32.toNat (wordBytes_injective hlow)
    have hhigh' := congrArg UInt32.toNat (wordBytes_injective hhigh)
    simp only [UInt64.toNat_toUInt32, Nat.reducePow, UInt64.toNat_shiftRight, UInt64.reduceToNat,
      Nat.reduceMod, Nat.shiftRight_eq_div_pow] at hlow' hhigh'
    have hstate := state.toNat_lt
    have hstate' := state'.toNat_lt
    omega
  · exact Array.toList_inj.1 (flatMap_wordBytes_injective hpath)

end Phrasebook.Draw
