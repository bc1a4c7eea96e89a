import Mathlib.Data.String.Basic
import Mathlib.Tactic.SplitIfs

/-!
# The bytes of a text

A text is stored as the bytes of its characters. The lesser of two characters has the lesser bytes, whatever bytes
follow (`encode_append_lt`), so texts are ordered as their bytes are (`bytes_lt_bytes`).
-/

namespace SolidScript.Text

/-- The bytes that a text is stored as. -/
def bytes (s : String) : List UInt8 := s.toUTF8.data.toList

theorem bytes_eq (s : String) : bytes s = s.toList.flatMap String.utf8EncodeChar := by
  have h : s.toUTF8 = (s.toList.flatMap String.utf8EncodeChar).toByteArray := String.utf8Encode_toList.symm
  rw [bytes, h, List.data_toByteArray]

section Byte

variable {m n : Nat} (hm : m < 256) (hn : n < 256)
include hm hn

theorem ofNat_lt_iff : UInt8.ofNat m < UInt8.ofNat n ↔ m < n := by
  rw [UInt8.lt_iff_toNat_lt, UInt8.toNat_ofNat_of_lt' hm, UInt8.toNat_ofNat_of_lt' hn]

theorem ofNat_inj : UInt8.ofNat m = UInt8.ofNat n ↔ m = n := by
  rw [← UInt8.toNat_inj, UInt8.toNat_ofNat_of_lt' hm, UInt8.toNat_ofNat_of_lt' hn]

end Byte

/-- The lesser of two characters has the lesser bytes, whatever follows them. -/
theorem encode_append_lt {c d : Char} (h : c < d) (x y : List UInt8) :
    String.utf8EncodeChar c ++ x < String.utf8EncodeChar d ++ y := by
  have hlt : c.val.toNat < d.val.toNat := h
  have hd : d.val.toNat < 1114112 := by
    rcases d.valid with hlow | hhigh <;> omega
  -- the digits to base 64 that a byte each is made of
  have hdigits (n : Nat) (hn : n < 1114112) : n / 262144 < 8 ∧
      n / 262144 % 8 * 262144 + n / 4096 % 64 * 4096 + n / 64 % 64 * 64 + n % 64 = n := by
    omega
  have hcdigits := hdigits c.val.toNat (by omega)
  have hddigits := hdigits d.val.toNat hd
  simp only [String.utf8EncodeChar]
  generalize c.val.toNat = m at hlt hcdigits
  generalize d.val.toNat = n at hlt hd hddigits
  split_ifs <;>
    simp (disch := omega) only [List.cons_append, List.cons_lt_cons_iff, ofNat_lt_iff, ofNat_inj] <;> omega

theorem flatMap_encode_lt {l m : List Char} (h : l < m) :
    l.flatMap String.utf8EncodeChar < m.flatMap String.utf8EncodeChar := by
  induction h with
  | @nil d m =>
    rw [List.flatMap_cons, List.flatMap_nil]
    cases hd : String.utf8EncodeChar d with
    | nil =>
      unfold String.utf8EncodeChar at hd
      grind
    | cons => exact List.nil_lt_cons ..
  | rel hlt =>
    rw [List.flatMap_cons, List.flatMap_cons]
    exact encode_append_lt hlt _ _
  | cons _ ih =>
    rw [List.flatMap_cons, List.flatMap_cons]
    exact List.append_left_lt ih

/-- **Texts are ordered as their bytes are.** -/
theorem bytes_lt_bytes {s t : String} : bytes s < bytes t ↔ s < t := by
  have hmono {s t : String} (h : s < t) : bytes s < bytes t := by
    rw [bytes_eq, bytes_eq]
    exact flatMap_encode_lt (String.lt_iff_toList_lt.1 h)
  refine ⟨fun h => ?_, hmono⟩
  rcases lt_trichotomy s t with hlt | rfl | hgt
  · exact hlt
  · exact absurd h (List.lt_irrefl _)
  · exact absurd (hmono hgt) (List.lt_asymm h)

end SolidScript.Text
