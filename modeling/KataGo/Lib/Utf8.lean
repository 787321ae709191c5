import Mathlib.Algebra.BigOperators.Group.List.Basic
import Mathlib.Algebra.GroupWithZero.Nat

/-! The bytes of a text: decoding them, and how many there are. -/

namespace KataGo.Lib.Utf8

instance bytesDecidableEq : DecidableEq ByteArray := ByteArray.decEq

def encode (text : List Char) : ByteArray := (String.ofList text).toUTF8

def decode (data : ByteArray) : Option (List Char) := data.utf8Decode?.map Array.toList

/-- How many bytes a text takes. -/
def size (text : List Char) : Nat := (text.map Char.utf8Size).sum

theorem encode_eq (text : List Char) : encode text = text.utf8Encode := by
  rw [encode, String.toUTF8_eq_toByteArray, String.toByteArray_ofList]

theorem decode_encode (text : List Char) : decode (encode text) = some text := by
  rw [decode, encode_eq, List.utf8Decode?_utf8Encode]
  simp

theorem encode_append (first second : List Char) : encode (first ++ second) = encode first ++ encode second := by
  rw [encode_eq, encode_eq, encode_eq]
  exact List.utf8Encode_append

theorem size_append (first second : List Char) : size (first ++ second) = size first + size second := by
  rw [size, List.map_append, List.sum_append]
  rfl

theorem size_encode (text : List Char) : (encode text).size = size text := by
  induction text with
  | nil => rfl
  | cons c text ih =>
    have one : (encode [c]).size = c.utf8Size := by
      rw [encode_eq, List.utf8Encode_singleton]
      simp
    show (encode ([c] ++ text)).size = size ([c] ++ text)
    rw [encode_append, ByteArray.size_append, size_append, ih, one]
    simp [size]

theorem length_le_size (text : List Char) : text.length ≤ size text := by
  induction text with
  | nil => exact Nat.le_refl 0
  | cons c text ih =>
    have positive := Char.utf8Size_pos c
    have step : size (c :: text) = c.utf8Size + size text := by simp [size]
    rw [List.length_cons, step]
    omega

end KataGo.Lib.Utf8
