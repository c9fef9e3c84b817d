import Mathlib.Tactic
import RigPack.Text.Letters

/-! Texts as letters, in memory and as bytes. -/

namespace RigPack
namespace Letters

@[simp] lemma ofString_empty : ofString "" = [] := rfl

@[simp] lemma ofString_append (s t : String) : ofString (s ++ t) = ofString s ++ ofString t := by
  simp [ofString]

/-- Behind bytes that have been read, the letters are those of the rest. -/
lemma ofBytesFrom_utf8Encode (bytes : ByteArray) (l : List Char) :
    ofBytesFrom (bytes ++ l.utf8Encode) bytes.size = l.map some := by
  induction l generalizing bytes with
  | nil => rw [ofBytesFrom,if_neg (by simp)]; rfl
  | cons c l ih =>
    have hsize : [c].utf8Encode.size = c.utf8Size := by
      simp [List.utf8Encode_singleton]
    have hfirst : (bytes ++ (c::l).utf8Encode).utf8DecodeChar? bytes.size = some c := by
      rw [ByteArray.utf8DecodeChar?_eq_utf8DecodeChar?_extract,
        ByteArray.extract_append_eq_right rfl ByteArray.size_append]
      exact List.utf8DecodeChar?_utf8Encode_cons
    have hlt : bytes.size < (bytes ++ (c::l).utf8Encode).size := by
      have := c.utf8Size_pos
      rw [ByteArray.size_append,List.utf8Encode_cons,ByteArray.size_append,hsize]
      omega
    have hrest := ih (bytes ++ [c].utf8Encode)
    rw [ByteArray.size_append,hsize,ByteArray.append_assoc,← List.utf8Encode_cons] at hrest
    rw [ofBytesFrom,if_pos hlt,hfirst]
    simp only
    rw [hrest]
    rfl

/-- A text is read from its bytes as it is. -/
theorem ofBytes_toUTF8 (s : String) : ofBytes s.toUTF8 = ofString s := by
  have h := ofBytesFrom_utf8Encode ByteArray.empty s.toList
  rwa [ByteArray.empty_append,String.utf8Encode_toList] at h

end Letters
end RigPack
