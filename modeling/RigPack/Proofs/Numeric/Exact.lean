import Mathlib.Algebra.Order.Field.Basic
import Mathlib.Tactic.Ring
import RigPack.Space.Vec3

/-! Exact arithmetic: the numbers of a linearly ordered field are scalars, with the field's own
operations and order. -/

namespace RigPack

variable {K : Type} [Field K] [LinearOrder K]

instance (priority := low) Scalar.ofOrderedField : Scalar K where
  natCast := Nat.cast
  decLe := inferInstance
  decLt := inferInstance

/-- Dividing the way from `a` to `b` is going a fraction of it from `a`. -/
lemma Vec3.lerp_eq (a b : Vec3 K) (s : K) : a.lerp b s = a + (b - a).scale s := by
  have h (u v : K) : u * ((1 : Nat) - s) + v * s = u + (v - u) * s := by
    rw [Nat.cast_one]
    ring
  change (⟨_,_,_⟩ : Vec3 K) = ⟨_,_,_⟩
  exact congr (congr (congrArg Vec3.mk (h ..)) (h ..)) (h ..)

end RigPack
