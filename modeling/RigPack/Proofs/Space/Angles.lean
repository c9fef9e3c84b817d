import Mathlib.Tactic
import RigPack.Proofs.Space.Turns

/-!
The angles of a turn in real arithmetic. The images of the axes under three turns, one after another,
are known by the sines and cosines of the angles, so the angles that are read off a frame make this
frame again. Where the first and the third turn go about nearly the same axis, leaving one of them
out changes little.
-/

namespace RigPack
namespace Quat

lemma radians_degrees (a : ℝ) : radians (degrees a) = a := by
  have hpi : (Real.pi : ℝ) ≠ 0 := Real.pi_ne_zero
  change a * (((180 : Nat) : ℝ) / Real.pi) * (Real.pi / ((180 : Nat) : ℝ)) = a
  push_cast
  field_simp

lemma circle (a : ℝ) : Trigonometric.sin a * Trigonometric.sin a +
    Trigonometric.cos a * Trigonometric.cos a = 1 := by
  rw [← sq,← sq]
  exact Real.sin_sq_add_cos_sq a

/-- A quaternion of angles has length one. -/
lemma normSq_ofDegrees (r : Vec3 ℝ) : (ofDegrees r).normSq = 1 := by
  simp only [normSq,ofDegrees]
  generalize radians r.x * (((1 : Nat) : ℝ) / ((2 : Nat) : ℝ)) = a
  generalize radians r.y * (((1 : Nat) : ℝ) / ((2 : Nat) : ℝ)) = b
  generalize radians r.z * (((1 : Nat) : ℝ) / ((2 : Nat) : ℝ)) = c
  have ha := circle a
  have hb := circle b
  have hc := circle c
  generalize Trigonometric.sin a = sa,Trigonometric.cos a = ka at ha ⊢
  generalize Trigonometric.sin b = sb,Trigonometric.cos b = kb at hb ⊢
  generalize Trigonometric.sin c = sc,Trigonometric.cos c = kc at hc ⊢
  linear_combination (sb * sb + kb * kb) * (sc * sc + kc * kc) * ha + (sc * sc + kc * kc) * hb + hc

/-- An angle by the sine and the cosine of its half. -/
lemma exists_half (a : ℝ) : ∃ s k : ℝ,
    Trigonometric.sin (a * (((1 : Nat) : ℝ) / ((2 : Nat) : ℝ))) = s ∧
    Trigonometric.cos (a * (((1 : Nat) : ℝ) / ((2 : Nat) : ℝ))) = k ∧
    s * s + k * k = 1 ∧ Real.sin a = 2 * s * k ∧ Real.cos a = k * k - s * s := by
  have htwice : a = 2 * (a * (((1 : Nat) : ℝ) / ((2 : Nat) : ℝ))) := by
    push_cast
    ring
  refine ⟨_,_,rfl,rfl,circle _,?_,?_⟩
  · conv_lhs => rw [htwice]
    exact Real.sin_two_mul _
  · conv_lhs => rw [htwice]
    rw [Real.cos_two_mul',sq,sq]
    rfl

/-- The images of the axes under turns by `a`, `b` and `c` about the first, the second and the third
axis, in this order. -/
noncomputable def turned (a b c : ℝ) : Vec3 ℝ × Vec3 ℝ × Vec3 ℝ :=
  (⟨Real.cos b * Real.cos c,Real.cos b * Real.sin c,-Real.sin b⟩,
    ⟨Real.sin a * Real.sin b * Real.cos c - Real.cos a * Real.sin c,
      Real.sin a * Real.sin b * Real.sin c + Real.cos a * Real.cos c,Real.sin a * Real.cos b⟩,
    ⟨Real.cos a * Real.sin b * Real.cos c + Real.sin a * Real.sin c,
      Real.cos a * Real.sin b * Real.sin c - Real.sin a * Real.cos c,Real.cos a * Real.cos b⟩)

/-- The quaternion of three angles turns by them. -/
lemma axes_ofDegrees (a b c : ℝ) : (ofDegrees ⟨degrees a,degrees b,degrees c⟩).axes = turned a b c := by
  rw [axes_eq (normSq_ofDegrees _)]
  obtain ⟨sa,ka,hsa,hka,ha,hsin,hcos⟩ := exists_half a
  obtain ⟨sb,kb,hsb,hkb,hb,hsin',hcos'⟩ := exists_half b
  obtain ⟨sc,kc,hsc,hkc,hc,hsin'',hcos''⟩ := exists_half c
  simp only [ofDegrees,radians_degrees,hsa,hka,hsb,hkb,hsc,hkc,turned,hsin,hcos,hsin',hcos',hsin'',
    hcos'']
  ext
  all_goals dsimp only
  · linear_combination (kb * kb - sb * sb) * (kc * kc - sc * sc) * ha
  · linear_combination (kb * kb - sb * sb) * (2 * sc * kc) * ha
  · linear_combination -(2 * sb * kb) * (sc * sc + kc * kc) * ha - 2 * sb * kb * hc
  · linear_combination -(ka * ka - sa * sa) * (2 * sc * kc) * hb
  · linear_combination (ka * ka - sa * sa) * (kc * kc - sc * sc) * hb
  · linear_combination 2 * sa * ka * (kb * kb - sb * sb) * hc
  · linear_combination 2 * sa * ka * (2 * sc * kc) * hb
  · linear_combination -(2 * sa * ka) * (kc * kc - sc * sc) * hb
  · linear_combination (ka * ka - sa * sa) * (kb * kb - sb * sb) * hc

/-- The angle of a point has the point's coordinates for cosine and sine, but for its distance. -/
lemma polar {x y r : ℝ} (hr : 0 ≤ r) (h : x * x + y * y = r * r) :
    r * Real.cos (Complex.arg ⟨x,y⟩) = x ∧ r * Real.sin (Complex.arg ⟨x,y⟩) = y := by
  have hnorm : ‖(⟨x,y⟩ : ℂ)‖ = r := by
    rw [Complex.norm_def,Complex.normSq_mk,h,Real.sqrt_mul_self hr]
  rw [← hnorm]
  exact ⟨Complex.norm_mul_cos_arg _,Complex.norm_mul_sin_arg _⟩

variable {X Y Z : Vec3 ℝ}

/-- How far the third image is from standing upright on the first axis and the second. -/
noncomputable def slack (Y Z : Vec3 ℝ) : ℝ :=
  Real.sqrt (Z.z * Z.z + Y.z * Y.z)

lemma slack_sq (Y Z : Vec3 ℝ) : slack Y Z * slack Y Z = Z.z * Z.z + Y.z * Y.z :=
  Real.mul_self_sqrt (add_nonneg (mul_self_nonneg _) (mul_self_nonneg _))

/-- The second angle that is read off a frame. -/
lemma IsFrame.middle (h : IsFrame X Y Z) :
    Real.cos (Complex.arg ⟨slack Y Z,-X.z⟩) = slack Y Z ∧
      Real.sin (Complex.arg ⟨slack Y Z,-X.z⟩) = -X.z := by
  have hunit : slack Y Z * slack Y Z + -X.z * -X.z = 1 * 1 := by
    rw [slack_sq]
    linear_combination h.last_row
  obtain ⟨hcos,hsin⟩ := polar zero_le_one hunit
  exact ⟨(one_mul _).symm.trans hcos,(one_mul _).symm.trans hsin⟩

/-- A frame is made by the angles that are read off it. -/
lemma IsFrame.turned_eq (h : IsFrame X Y Z) (hslack : 0 < slack Y Z) :
    turned (Complex.arg ⟨Z.z,Y.z⟩) (Complex.arg ⟨slack Y Z,-X.z⟩) (Complex.arg ⟨X.x,X.y⟩) =
      (X,Y,Z) := by
  have hsq := slack_sq Y Z
  obtain ⟨hcosb,hsinb⟩ := h.middle
  obtain ⟨hcosa,hsina⟩ := polar hslack.le hsq.symm
  obtain ⟨hcosc,hsinc⟩ : slack Y Z * Real.cos (Complex.arg ⟨X.x,X.y⟩) = X.x ∧
      slack Y Z * Real.sin (Complex.arg ⟨X.x,X.y⟩) = X.y := by
    refine polar hslack.le ?_
    rw [hsq]
    linear_combination h.first - h.last_row
  rw [turned,hcosb,hsinb]
  generalize Real.cos (Complex.arg ⟨Z.z,Y.z⟩) = ka at hcosa ⊢
  generalize Real.sin (Complex.arg ⟨Z.z,Y.z⟩) = sa at hsina ⊢
  generalize Real.cos (Complex.arg ⟨X.x,X.y⟩) = kc at hcosc ⊢
  generalize Real.sin (Complex.arg ⟨X.x,X.y⟩) = sc at hsinc ⊢
  generalize slack Y Z = w at hslack hsq hcosa hsina hcosc hsinc ⊢
  -- the entries off the last row and the first axis are known by their products with the square
  have hcancel {a b : ℝ} (hab : w * w * a = w * w * b) : a = b :=
    mul_left_cancel₀ (mul_pos hslack hslack).ne' hab
  ext
  all_goals dsimp only
  · exact hcosc
  · exact hsinc
  · exact neg_neg X.z
  · apply hcancel
    linear_combination -X.z * w * kc * hsina - X.z * Y.z * hcosc - w * sc * hcosa - Z.z * hsinc -
      Y.x * hsq - h.second_x_eq
  · apply hcancel
    linear_combination -X.z * w * sc * hsina - X.z * Y.z * hsinc + w * kc * hcosa + Z.z * hcosc -
      Y.y * hsq - h.second_y_eq
  · rw [mul_comm]
    exact hsina
  · apply hcancel
    linear_combination -X.z * w * kc * hcosa - X.z * Z.z * hcosc + w * sc * hsina + Y.z * hsinc -
      Z.x * hsq - h.third_x_eq
  · apply hcancel
    linear_combination -X.z * w * sc * hcosa - X.z * Z.z * hsinc - w * kc * hsina - Y.z * hcosc -
      Z.y * hsq - h.third_y_eq
  · rw [mul_comm]
    exact hcosa

/-- Two vectors that differ by at most `δ` in each coordinate. -/
def Near (δ : ℝ) (v w : Vec3 ℝ) : Prop :=
  |v.x - w.x| ≤ δ ∧ |v.y - w.y| ≤ δ ∧ |v.z - w.z| ≤ δ

lemma abs_mul_le {a b w : ℝ} (ha : |a| ≤ 1) (hb : |b| ≤ w) : |a * b| ≤ w := by
  rw [abs_mul]
  exact (mul_le_of_le_one_left (abs_nonneg b) ha).trans hb

lemma abs_sub_le_double {a b w : ℝ} (ha : |a| ≤ w) (hb : |b| ≤ w) : |a - b| ≤ 2 * w := by
  linarith [abs_sub a b]

lemma abs_le_of_mul_self {a w : ℝ} (hw : 0 ≤ w) (h : a * a ≤ w * w) : |a| ≤ w :=
  abs_le_of_sq_le_sq (by rwa [sq,sq]) hw

/-- Where a frame has little slack, its second angle and the sum of the two others nearly make it
again. -/
lemma IsFrame.turned_near (h : IsFrame X Y Z) (hslack : slack Y Z ≤ 1) :
    Near (2 * slack Y Z)
        (turned 0 (Complex.arg ⟨slack Y Z,-X.z⟩) (Complex.arg ⟨Y.y,-Y.x⟩)).1 X ∧
      Near (2 * slack Y Z)
        (turned 0 (Complex.arg ⟨slack Y Z,-X.z⟩) (Complex.arg ⟨Y.y,-Y.x⟩)).2.1 Y ∧
      Near (2 * slack Y Z)
        (turned 0 (Complex.arg ⟨slack Y Z,-X.z⟩) (Complex.arg ⟨Y.y,-Y.x⟩)).2.2 Z := by
  have hnonneg : 0 ≤ slack Y Z := Real.sqrt_nonneg _
  have hsq := slack_sq Y Z
  obtain ⟨hcosb,hsinb⟩ := h.middle
  have hr := Real.sqrt_nonneg (Y.x * Y.x + Y.y * Y.y)
  have hrsq := Real.mul_self_sqrt (add_nonneg (mul_self_nonneg Y.x) (mul_self_nonneg Y.y))
  generalize Real.sqrt (Y.x * Y.x + Y.y * Y.y) = r at hr hrsq
  obtain ⟨hcos,hsin⟩ := polar (x := Y.y) (y := -Y.x) hr (by linear_combination -hrsq)
  have hkc := Real.abs_cos_le_one (Complex.arg ⟨Y.y,-Y.x⟩)
  have hsc := Real.abs_sin_le_one (Complex.arg ⟨Y.y,-Y.x⟩)
  rw [turned,hcosb,hsinb,Real.sin_zero,Real.cos_zero]
  generalize Real.cos (Complex.arg ⟨Y.y,-Y.x⟩) = kc at hcos hkc ⊢
  generalize Real.sin (Complex.arg ⟨Y.y,-Y.x⟩) = sc at hsin hsc ⊢
  generalize slack Y Z = w at hslack hnonneg hsq ⊢
  have hw : |w| ≤ w := (abs_of_nonneg hnonneg).le
  have hXx : |X.x| ≤ w := abs_le_of_mul_self hnonneg (by
    linarith [h.first,h.last_row,mul_self_nonneg X.y])
  have hXy : |X.y| ≤ w := abs_le_of_mul_self hnonneg (by
    linarith [h.first,h.last_row,mul_self_nonneg X.x])
  have hYz : |Y.z| ≤ w := abs_le_of_mul_self hnonneg (by linarith [mul_self_nonneg Z.z])
  have hZz : |Z.z| ≤ w := abs_le_of_mul_self hnonneg (by linarith [mul_self_nonneg Y.z])
  have hXz : |X.z| ≤ 1 := abs_le_of_mul_self zero_le_one (by
    linarith [h.first,mul_self_nonneg X.x,mul_self_nonneg X.y])
  have hshort : |1 - r| ≤ w := by
    have hr1 : r ≤ 1 := le_of_abs_le (abs_le_of_mul_self zero_le_one (by
      linarith [h.second,mul_self_nonneg Y.z]))
    have hrr : r * r ≤ r := mul_le_of_le_one_left hr hr1
    have hww : w * w ≤ w := mul_le_of_le_one_left hnonneg hslack
    rw [abs_of_nonneg (sub_nonneg.mpr hr1)]
    linarith [h.second,mul_self_nonneg Z.z]
  have hzero : |(0 : ℝ)| ≤ w := abs_zero.trans_le hnonneg
  have hskc : |kc * (1 - r)| ≤ w := abs_mul_le hkc hshort
  have hssc : |sc * (1 - r)| ≤ w := abs_mul_le hsc hshort
  have hXz' : |-X.z| ≤ 1 := by rwa [abs_neg]
  refine ⟨⟨?_,?_,?_⟩,⟨?_,?_,?_⟩,?_,?_,?_⟩
  all_goals dsimp only
  · rw [mul_comm]
    exact abs_sub_le_double (abs_mul_le hkc hw) hXx
  · rw [mul_comm]
    exact abs_sub_le_double (abs_mul_le hsc hw) hXy
  · rw [neg_neg,sub_self,abs_zero]
    exact mul_nonneg zero_le_two hnonneg
  · have heq : 0 * -X.z * kc - 1 * sc - Y.x = 0 - sc * (1 - r) := by linear_combination -hsin
    rw [heq]
    exact abs_sub_le_double hzero hssc
  · have heq : 0 * -X.z * sc + 1 * kc - Y.y = kc * (1 - r) - 0 := by linear_combination hcos
    rw [heq]
    exact abs_sub_le_double hskc hzero
  · rw [zero_mul]
    exact abs_sub_le_double hzero hYz
  · have heq : 1 * -X.z * kc + 0 * sc - Z.x = -X.z * (kc * (1 - r)) - X.y * Y.z := by
      linear_combination -X.z * hcos - h.third_x
    rw [heq]
    exact abs_sub_le_double (abs_mul_le hXz' hskc) (abs_mul_le (hXy.trans hslack) hYz)
  · have heq : 1 * -X.z * sc - 0 * kc - Z.y = -X.z * (sc * (1 - r)) - X.x * -Y.z := by
      linear_combination -X.z * hsin - h.third_y
    rw [heq]
    refine abs_sub_le_double (abs_mul_le hXz' hssc) (abs_mul_le (hXx.trans hslack) ?_)
    rwa [abs_neg]
  · rw [one_mul]
    exact abs_sub_le_double hw hZz

end Quat
end RigPack
