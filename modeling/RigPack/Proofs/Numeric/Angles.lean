import Mathlib.Analysis.SpecialFunctions.Complex.Arg
import Mathlib.Analysis.SpecialFunctions.Trigonometric.Basic
import RigPack.Proofs.Numeric.Exact

/-! Exact arithmetic with angles: exact numbers that have functions for their angles are
trigonometric scalars, the real numbers with the functions of analysis among them. -/

namespace RigPack

/-- Functions for the angles of exact numbers. Nothing is asked of them but the sine and the cosine
of zero. -/
class Angular (K : Type) [Zero K] [One K] where
  pi : K
  sin : K → K
  cos : K → K
  atan2 : K → K → K
  sqrt : K → K
  signum : K → K
  sin_zero : sin 0 = 0
  cos_zero : cos 0 = 1

section Exact

variable {K : Type} [Field K] [LinearOrder K] [Angular K]

instance (priority := low) Trigonometric.ofAngular : Trigonometric K where
  toScalar := Scalar.ofOrderedField
  pi := Angular.pi
  sin := Angular.sin
  cos := Angular.cos
  atan2 := Angular.atan2
  sqrt := Angular.sqrt
  signum := Angular.signum

@[simp] lemma trigonometric_sin_zero : Trigonometric.sin (0 : K) = 0 := Angular.sin_zero

@[simp] lemma trigonometric_cos_zero : Trigonometric.cos (0 : K) = 1 := Angular.cos_zero

end Exact

/-- The real functions. The angle of a point is the argument of the complex number there, and zero
counts as positive. -/
noncomputable instance : Angular ℝ where
  pi := Real.pi
  sin := Real.sin
  cos := Real.cos
  atan2 y x := Complex.arg ⟨x,y⟩
  sqrt := Real.sqrt
  signum x := if x < 0 then -1 else 1
  sin_zero := Real.sin_zero
  cos_zero := Real.cos_zero

end RigPack
