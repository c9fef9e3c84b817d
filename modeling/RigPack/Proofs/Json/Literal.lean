import Mathlib.Tactic
import RigPack.Json.Literal
import RigPack.Proofs.Text.Letters

/-! Texts between quotes. What is quoted is read as it was, whatever follows it. -/

namespace RigPack

namespace Literal

variable {rest : List Letter}

/-- Puts a piece before those that are read of a text. -/
def before (p : Piece) (r : Option (List Piece × List Letter)) :
    Option (List Piece × List Letter) :=
  r.map fun (ps,rest) => (p::ps,rest)

/-- A backslash and the letter after it. -/
lemma pieces_mark {l : Letter} {c : Char} (hl : l ≠ some 'u') (h : escaped l = some c) :
    pieces (some '\\'::l::rest) = before (.letter (some c)) (pieces rest) := by
  rw [pieces,h]
  · simp [before,Option.map_eq_bind]
  · exact fun _ _ _ _ _ hu => absurd hu hl

lemma pieces_unit {a b c d : Letter} {n : Nat} (h : hexUnit a b c d = some n) :
    pieces (some '\\'::some 'u'::a::b::c::d::rest) = before (.unit n) (pieces rest) := by
  rw [pieces,h]
  simp [before,Option.map_eq_bind]

lemma pieces_plain {c : Char} (h : 0x20 ≤ c.toNat) (hquote : c ≠ '"') (hslash : c ≠ '\\') :
    pieces (some c::rest) = before (.letter (some c)) (pieces rest) := by
  rw [pieces]
  · simp [before,Option.map_eq_bind,hslash,Nat.not_lt.mpr h]
  all_goals simp [hquote,hslash]

/-- A control character that has no escape of its own. -/
def isUnit (c : Char) : Prop :=
  c.toNat < 0x20 ∧ c ≠ '\x08' ∧ c ≠ '\x0c' ∧ c ≠ '\n' ∧ c ≠ '\r' ∧ c ≠ '\t'

instance (c : Char) : Decidable (isUnit c) :=
  inferInstanceAs (Decidable (_ ∧ _))

/-- What is read of one character inside quotes. -/
def pieceOf (c : Char) : Piece :=
  if isUnit c then .unit c.toNat else .letter (some c)

lemma hexUnit_of_lt : ∀ n < 0x20,
    hexUnit (some '0') (some '0') (some (hexDigit (n / 16))) (some (hexDigit (n % 16))) =
      some n := by
  decide

/-- A character inside quotes is one piece. -/
lemma pieces_escape (c : Char) :
    pieces ((escape c).map some ++ rest) = before (pieceOf c) (pieces rest) := by
  unfold escape
  split
  · subst c; exact pieces_mark (by decide) rfl
  split
  · subst c; exact pieces_mark (by decide) rfl
  split
  · subst c; exact pieces_mark (by decide) rfl
  split
  · subst c; exact pieces_mark (by decide) rfl
  split
  · subst c; exact pieces_mark (by decide) rfl
  split
  · subst c; exact pieces_mark (by decide) rfl
  split
  · subst c; exact pieces_mark (by decide) rfl
  split
  · rename_i hlow
    rw [pieceOf,if_pos ⟨hlow,‹_›,‹_›,‹_›,‹_›,‹_›⟩]
    exact pieces_unit (hexUnit_of_lt _ hlow)
  · rename_i hlow
    rw [pieceOf,if_neg fun h => hlow h.1]
    exact pieces_plain (Nat.le_of_not_lt hlow) ‹_› ‹_›

lemma pieces_quoted (l : List Char) :
    pieces ((l.flatMap escape).map some ++ some '"'::rest) = some (l.map pieceOf,rest) := by
  induction l with
  | nil => simp [pieces]
  | cons c l ih =>
    rw [List.flatMap_cons,List.map_append,List.append_assoc,pieces_escape,ih]
    rfl

lemma denote_pieceOf (l : List Char) : denote (l.map pieceOf) = some l := by
  induction l with
  | nil => rfl
  | cons c l ih =>
    rw [List.map_cons,pieceOf]
    split
    · rename_i hc
      have hlow : c.toNat < 0xD800 ∨ 0xDFFF < c.toNat := .inl (hc.1.trans (by decide))
      rw [denote.eq_def]
      simp only
      rw [if_pos hlow,ih,Char.ofNat_toNat]
      rfl
    · rw [denote,ih]
      rfl

/-- The letters of a quoted text behind its first quote. -/
def inside (s : String) : List Letter :=
  (s.toList.flatMap escape).map some ++ [some '"']

lemma ofString_quote (s : String) : Letters.ofString (quote s) = some '"'::inside s := by
  simp [Letters.ofString,quote,inside]

/-- A quoted text is read back. -/
theorem read_inside (s : String) : read (inside s ++ rest) = some (some s,rest) := by
  rw [inside,List.append_assoc,read,List.singleton_append,pieces_quoted]
  simp [denote_pieceOf]

end Literal

end RigPack
