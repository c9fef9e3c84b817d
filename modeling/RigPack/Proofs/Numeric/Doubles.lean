import Mathlib
import RigPack.Numeric.Scalar

/-!
Doubles in order. All doubles but the one that is no number stand in a line, the two zeros at one
place of it, so finite times can be compared as exact ones can.
-/

namespace RigPack
namespace Double

open Float.Model

/-- The place of a double in the line: the side of zero on which it stands, and then how far away
it is. -/
def place : UnpackedFloat → ℤ ×ₗ ℤ ×ₗ ℤ
  | .infinity .negative => toLex (-2,toLex (0,0))
  | .finite .negative mantissa exponent _ => toLex (-1,toLex (-exponent,-mantissa))
  | .zero _ | .notANumber => toLex (0,toLex (0,0))
  | .finite .positive mantissa exponent _ => toLex (1,toLex (exponent,mantissa))
  | .infinity .positive => toLex (2,toLex (0,0))

lemma then_isLE {e e' : ℤ} {m m' : ℕ} :
    ((compare e e').then (compare m m')).isLE = true ↔ e < e' ∨ e = e' ∧ m ≤ m' := by
  rw [Ordering.isLE_then_iff_or,compare_lt_iff_lt,compare_eq_iff_eq,Nat.isLE_compare]

lemma swap_then {e e' : ℤ} {m m' : ℕ} :
    ((compare e e').then (compare m m')).swap = (compare e' e).then (compare m' m) := by
  rw [Ordering.swap_then,← Std.OrientedCmp.eq_swap,← Std.OrientedCmp.eq_swap]

lemma le_iff_place {a b : UnpackedFloat} (ha : a.isNaN = false) (hb : b.isNaN = false) :
    a.le b = true ↔ place a ≤ place b := by
  unfold UnpackedFloat.le UnpackedFloat.compare
  cases a with
  | notANumber => cases ha
  | infinity s =>
    cases b with
    | notANumber => cases hb
    | infinity r => cases s <;> cases r <;> simp [place,Prod.Lex.toLex_le_toLex] <;> decide
    | zero r => cases s <;> simp [place,Prod.Lex.toLex_le_toLex]
    | finite r m' e' h' => cases s <;> cases r <;> simp [place,Prod.Lex.toLex_le_toLex]
  | zero s =>
    cases b with
    | notANumber => cases hb
    | infinity r => cases r <;> simp [place,Prod.Lex.toLex_le_toLex]
    | zero r => simp [place]
    | finite r m' e' h' => cases r <;> simp [place,Prod.Lex.toLex_le_toLex]
  | finite s m e h =>
    cases b with
    | notANumber => cases hb
    | infinity r => cases s <;> cases r <;> simp [place,Prod.Lex.toLex_le_toLex]
    | zero r => cases s <;> simp [place,Prod.Lex.toLex_le_toLex]
    | finite r m' e' h' =>
      cases s <;> cases r <;> simp [place,Prod.Lex.toLex_le_toLex,swap_then,then_isLE]
      omega

/-- Doubles that are numbers are in the order of their places. -/
lemma le_iff {a b : Float} (ha : a.isNaN = false) (hb : b.isNaN = false) :
    a ≤ b ↔ place a.toModel.unpack ≤ place b.toModel.unpack :=
  (decide_eq_true_iff (p := a.toModel ≤ b.toModel)).trans (le_iff_place ha hb)

lemma isNaN_of_isFinite {a : Float} (h : a.isFinite = true) : a.isNaN = false := by
  change a.toModel.unpack.isNaN = false
  replace h : a.toModel.unpack.isFinite = true := h
  generalize a.toModel.unpack = u at h ⊢
  cases u with
  | notANumber => cases h
  | _ => rfl

end Double
end RigPack
