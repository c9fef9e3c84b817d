import Mathlib

/-!
The order of texts is that of their bytes. A code point becomes a lead byte and up to three more of
six bits each, and the lead byte grows with their number, so comparing two encodings byte by byte
compares the code points.
-/

namespace RigPack
namespace Text

/-- The bytes behind the lead byte of a code point, `k` of them. -/
def continuation (n : Nat) : Nat → List UInt8
  | 0 => []
  | k+1 => UInt8.ofNat (n / 64^k % 64 + 0x80)::continuation n k

/-- How many bytes stand behind the lead byte of a code point. -/
def continued (n : Nat) : Nat :=
  if n ≤ 0x7f then 0 else if n ≤ 0x7ff then 1 else if n ≤ 0xffff then 2 else 3

/-- What a lead byte holds beside the leading bits of its code point. -/
def mark : Nat → Nat
  | 0 => 0
  | 1 => 0xc0
  | 2 => 0xe0
  | _ => 0xf0

lemma toNat_lt (c : Char) : c.val.toNat < 0x110000 := by
  have hvalid := c.valid
  simp only [UInt32.isValidChar,Nat.isValidChar] at hvalid
  omega

lemma utf8EncodeChar_eq (c : Char) : String.utf8EncodeChar c =
    UInt8.ofNat (c.val.toNat / 64^continued c.val.toNat + mark (continued c.val.toNat))::
      continuation c.val.toNat (continued c.val.toNat) := by
  have hlt := toNat_lt c
  simp only [String.utf8EncodeChar]
  generalize c.val.toNat = n at hlt
  unfold continued
  split_ifs
  · simp [mark,continuation]
  all_goals
    simp only [mark,continuation]
    rw [Nat.mod_eq_of_lt (by omega)]
    simp

lemma cons_lt_cons {m n : Nat} {r s : List UInt8} (hm : m < 256) (hn : n < 256)
    (h : m < n ∨ m = n ∧ r < s) : UInt8.ofNat m::r < UInt8.ofNat n::s := by
  rwa [List.cons_lt_cons_iff,UInt8.lt_iff_toNat_lt,← UInt8.toNat_inj,UInt8.toNat_ofNat',
    UInt8.toNat_ofNat',Nat.mod_eq_of_lt hm,Nat.mod_eq_of_lt hn]

/-- Of two numbers the smaller has the smaller leading digit, or the same one and the smaller rest.
-/
lemma lt_of_digits {b m n : Nat} (h : m < n) : m / b < n / b ∨ m / b = n / b ∧ m % b < n % b := by
  rcases Nat.lt_or_eq_of_le (Nat.div_le_div_right (c:=b) h.le) with hlt | heq
  · exact .inl hlt
  · refine .inr ⟨heq,?_⟩
    rw [← Nat.div_add_mod m b,← Nat.div_add_mod n b,heq] at h
    omega

lemma continuation_lt {m n k : Nat} (h : m % 64^k < n % 64^k) (r s : List UInt8) :
    continuation m k ++ r < continuation n k ++ s := by
  induction k with
  | zero => omega
  | succ k ih =>
    refine cons_lt_cons (by omega) (by omega) ?_
    have hdigit := lt_of_digits (b:=64^k) h
    rw [Nat.pow_succ,Nat.mod_mul_right_div_self,Nat.mod_mul_right_div_self,Nat.mod_mul_right_mod,
      Nat.mod_mul_right_mod] at hdigit
    rcases hdigit with hlt | ⟨heq,hlt⟩
    · exact .inl (by omega)
    · exact .inr ⟨by omega,ih hlt⟩

/-- The bytes of two characters are in the order of the characters, whatever follows. -/
lemma utf8EncodeChar_lt {c d : Char} (h : c < d) (r s : List UInt8) :
    String.utf8EncodeChar c ++ r < String.utf8EncodeChar d ++ s := by
  have hlt : c.val.toNat < d.val.toNat := h
  have hd := toNat_lt d
  rw [utf8EncodeChar_eq,utf8EncodeChar_eq]
  generalize c.val.toNat = m at hlt
  generalize d.val.toNat = n at hlt hd
  have hlead (l : Nat) (hl : l < 0x110000) : l / 64^continued l + mark (continued l) < 256 := by
    unfold continued
    split_ifs <;> simp only [mark] <;> omega
  refine cons_lt_cons (hlead m (hlt.trans hd)) (hlead n hd) ?_
  by_cases hsize : continued m = continued n
  · rw [hsize]
    rcases lt_of_digits (b:=64^continued n) hlt with hdigit | ⟨heq,hrest⟩
    · exact .inl (by omega)
    · exact .inr ⟨by omega,continuation_lt hrest r s⟩
  · left
    unfold continued at hsize ⊢
    split_ifs at hsize ⊢ <;> simp only [mark] <;> omega

lemma flatMap_utf8EncodeChar_lt {l l' : List Char} (h : l < l') :
    l.flatMap String.utf8EncodeChar < l'.flatMap String.utf8EncodeChar := by
  induction (h : List.Lex (· < ·) l l') with
  | @nil d l' =>
    rw [List.flatMap_nil,List.flatMap_cons,utf8EncodeChar_eq]
    exact List.Lex.nil
  | rel hcd => exact utf8EncodeChar_lt hcd _ _
  | cons _ ih => exact List.append_left_lt ih

lemma utf8_eq_flatMap (s : String) :
    s.toUTF8.data.toList = s.toList.flatMap String.utf8EncodeChar := by
  change s.toByteArray.data.toList = _
  rw [← String.utf8Encode_toList,List.utf8Encode,List.data_toByteArray]

/-- Texts stand in the order of their bytes. -/
theorem lt_iff_utf8_lt (s t : String) : s < t ↔ s.toUTF8.data.toList < t.toUTF8.data.toList := by
  have hmono (s t : String) (h : s < t) : s.toUTF8.data.toList < t.toUTF8.data.toList := by
    rw [utf8_eq_flatMap,utf8_eq_flatMap]
    exact flatMap_utf8EncodeChar_lt h
  refine ⟨hmono s t,fun h => ?_⟩
  rcases lt_trichotomy s t with hlt | rfl | hgt
  · exact hlt
  · exact absurd h (List.lt_irrefl _)
  · exact absurd (hmono t s hgt) (List.lt_asymm h)

end Text
end RigPack
