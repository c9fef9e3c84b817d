import Mathlib.Tactic
import RigPack.Proofs.Space.Angles
import RigPack.Skeleton.Sample

/-!
Rigid matrices taken apart in real arithmetic. Whatever branch the way to a quaternion takes, it
finds the turn of the matrix, and the pose that is read off the turn makes the matrix again: exactly,
but where two of its angles turn about nearly the same axis.
-/

namespace RigPack

section Parts

variable {α : Type} [Trigonometric α]

/-- The turn that taking a matrix apart finds in it. -/
def Pose.turnOf (m : Mat4 α) : Quat α :=
  let one : α := (1 : Nat)
  let length (v : Vec4 α) : α := Trigonometric.sqrt (v.dot v)
  let unit (v : Vec4 α) (size : α) : Vec3 α := (v.scale (one / size)).xyz
  Quat.ofAxes
    (unit m.xAxis (length m.xAxis * Trigonometric.signum m.determinant))
    (unit m.yAxis (length m.yAxis)) (unit m.zAxis (length m.zAxis))

lemma Pose.ofMatrix_eq (m : Mat4 α) : ofMatrix m = ⟨m.wAxis.xyz,(turnOf m).toDegrees⟩ :=
  rfl

/-- The turns for which only the sum of two angles is determined, as far as reading the angles off
tells them. -/
def Quat.Locked (q : Quat α) : Prop :=
  ¬gimbalLimit <
    Trigonometric.sqrt (q.axes.2.2.z * q.axes.2.2.z + q.axes.2.1.z * q.axes.2.1.z)

end Parts

namespace Quat

/-- Components that are products with one component, scaled by the root of its square, are those of
the quaternion or of its opposite. -/
lemma exists_scale (q : Quat ℝ) {f k a b c d : ℝ} (hf : 0 < f) (hk : f = 4 * (k * k))
    (ha : a = 4 * (k * q.x)) (hb : b = 4 * (k * q.y)) (hc : c = 4 * (k * q.z))
    (hd : d = 4 * (k * q.w)) :
    ∃ s, s * s = 1 ∧ (⟨a * (1 / 2 / Real.sqrt f),b * (1 / 2 / Real.sqrt f),
      c * (1 / 2 / Real.sqrt f),d * (1 / 2 / Real.sqrt f)⟩ : Quat ℝ) =
        ⟨s * q.x,s * q.y,s * q.z,s * q.w⟩ := by
  have hinverse : 4 * f * (1 / 2 / Real.sqrt f * (1 / 2 / Real.sqrt f)) = 1 := by
    have hne := (Real.sqrt_pos.mpr hf).ne'
    field_simp
    rw [Real.sq_sqrt hf.le]
    ring
  generalize 1 / 2 / Real.sqrt f = i at hinverse ⊢
  refine ⟨4 * k * i,?_,?_⟩
  · rw [hk] at hinverse
    linear_combination hinverse
  · rw [ha,hb,hc,hd]
    congr 1 <;> ring

/-- The quaternion that is found from the images of the axes under a turn is the turn's own, up to
its sign. -/
lemma ofAxes_axes {q : Quat ℝ} (h : q.normSq = 1) : ∃ s, s * s = 1 ∧
    ofAxes q.axes.1 q.axes.2.1 q.axes.2.2 = ⟨s * q.x,s * q.y,s * q.z,s * q.w⟩ := by
  rw [axes_eq h]
  rw [normSq] at h
  simp only [ofAxes,Nat.cast_zero,Nat.cast_one,Nat.cast_ofNat]
  split_ifs with hz hd hs
  · apply exists_scale q (k := q.x)
    · linarith
    · linear_combination -h
    · linear_combination -h
    · ring
    · ring
    · ring
  · apply exists_scale q (k := q.y)
    · linarith
    · linear_combination -h
    · ring
    · linear_combination -h
    · ring
    · ring
  · apply exists_scale q (k := q.z)
    · linarith
    · linear_combination -h
    · ring
    · ring
    · linear_combination -h
    · ring
  · apply exists_scale q (k := q.w)
    · linarith
    · linear_combination -h
    · ring
    · ring
    · ring
    · linear_combination -h

lemma toDegrees_congr {p q : Quat ℝ} (h : p.axes = q.axes) : p.toDegrees = q.toDegrees := by
  simp only [toDegrees,h]

lemma locked_congr {p q : Quat ℝ} (h : p.axes = q.axes) : p.Locked ↔ q.Locked := by
  simp only [Locked,h]

/-- The angles that are read off a turn make it again. -/
lemma axes_toDegrees {q : Quat ℝ} (h : q.normSq = 1) (hfree : ¬q.Locked) :
    (ofDegrees q.toDegrees).axes = q.axes := by
  have hlimit : gimbalLimit < slack q.axes.2.1 q.axes.2.2 := not_not.mp hfree
  have hpos : (0 : ℝ) < gimbalLimit := by norm_num [gimbalLimit]
  have hangles : q.toDegrees = ⟨degrees (Complex.arg ⟨q.axes.2.2.z,q.axes.2.1.z⟩),
      degrees (Complex.arg ⟨slack q.axes.2.1 q.axes.2.2,-q.axes.1.z⟩),
      degrees (Complex.arg ⟨q.axes.1.x,q.axes.1.y⟩)⟩ := if_pos hlimit
  rw [hangles,axes_ofDegrees,(isFrame_axes h).turned_eq (hpos.trans hlimit)]

/-- Where only the sum of two angles is determined, the angles that are read off nearly make the
turn again. -/
lemma axes_toDegrees_near {q : Quat ℝ} (h : q.normSq = 1) (hlocked : q.Locked) :
    Near (1 / 10 ^ 5) (ofDegrees q.toDegrees).axes.1 q.axes.1 ∧
      Near (1 / 10 ^ 5) (ofDegrees q.toDegrees).axes.2.1 q.axes.2.1 ∧
      Near (1 / 10 ^ 5) (ofDegrees q.toDegrees).axes.2.2 q.axes.2.2 := by
  have hslack : slack q.axes.2.1 q.axes.2.2 ≤ gimbalLimit := not_lt.mp hlocked
  have hlimit : 2 * gimbalLimit ≤ (1 : ℝ) / 10 ^ 5 := by norm_num [gimbalLimit]
  have hone : (gimbalLimit : ℝ) ≤ 1 := by norm_num [gimbalLimit]
  have hangles : q.toDegrees = ⟨degrees 0,
      degrees (Complex.arg ⟨slack q.axes.2.1 q.axes.2.2,-q.axes.1.z⟩),
      degrees (Complex.arg ⟨q.axes.2.1.y,-q.axes.2.1.x⟩)⟩ := by
    rw [← Nat.cast_zero]
    exact if_neg hlocked
  have hweaken {v w : Vec3 ℝ} (hvw : Near (2 * slack q.axes.2.1 q.axes.2.2) v w) :
      Near (1 / 10 ^ 5) v w := by
    have hle : 2 * slack q.axes.2.1 q.axes.2.2 ≤ 1 / 10 ^ 5 := by linarith
    exact ⟨hvw.1.trans hle,hvw.2.1.trans hle,hvw.2.2.trans hle⟩
  rw [hangles,axes_ofDegrees]
  obtain ⟨hX,hY,hZ⟩ := (isFrame_axes h).turned_near (hslack.trans hone)
  exact ⟨hweaken hX,hweaken hY,hweaken hZ⟩

end Quat

namespace Mat4

variable {q : Quat ℝ} {v : Vec3 ℝ}

lemma ofTurn_congr {p : Quat ℝ} (h : p.axes = q.axes) (v : Vec3 ℝ) : ofTurn p v = ofTurn q v := by
  simp only [ofTurn,h]

/-- The turn that is found in a rigid matrix is its own. -/
lemma axes_turnOf (h : q.normSq = 1) (v : Vec3 ℝ) :
    (Pose.turnOf (ofTurn q v)).axes = q.axes := by
  have hframe := Quat.isFrame_axes h
  have hunit {x : Vec4 ℝ} (hx : x.dot x = 1) : Trigonometric.sqrt (x.dot x) = 1 := by
    rw [hx]
    exact Real.sqrt_one
  have hx : (ofTurn q v).xAxis.dot (ofTurn q v).xAxis = 1 := by
    simpa [Vec4.dot,ofTurn] using hframe.first
  have hy : (ofTurn q v).yAxis.dot (ofTurn q v).yAxis = 1 := by
    simpa [Vec4.dot,ofTurn] using hframe.second
  have hz : (ofTurn q v).zAxis.dot (ofTurn q v).zAxis = 1 := by
    simpa [Vec4.dot,ofTurn] using hframe.third
  have hsign : Trigonometric.signum (1 : ℝ) = 1 := if_neg (not_lt_of_ge zero_le_one)
  have hturn : Pose.turnOf (ofTurn q v) = Quat.ofAxes q.axes.1 q.axes.2.1 q.axes.2.2 := by
    simp only [Pose.turnOf,hunit hx,hunit hy,hunit hz,determinant_ofTurn h,hsign]
    simp [Vec4.scale,Vec4.xyz,ofTurn]
  obtain ⟨s,hs,heq⟩ := Quat.ofAxes_axes h
  rw [hturn,heq,Quat.axes_scaled hs]

/-- A rigid matrix that is taken apart and put together keeps its shift, and its turn goes through
the angles. -/
lemma toMatrix_ofMatrix (h : q.normSq = 1) (v : Vec3 ℝ) :
    (Pose.ofMatrix (ofTurn q v)).toMatrix = ofTurn (.ofDegrees q.toDegrees) v := by
  rw [toMatrix_eq_ofTurn,Pose.ofMatrix_eq,Quat.toDegrees_congr (axes_turnOf h v)]
  rfl

/-- Whether the angles of a rigid matrix are all determined stands in the last row of its turn. -/
lemma IsRigid.locked_iff {m : Mat4 ℝ} (hm : m.IsRigid) :
    (Pose.turnOf m).Locked ↔
      ¬Quat.gimbalLimit < Real.sqrt (m.zAxis.z * m.zAxis.z + m.yAxis.z * m.yAxis.z) := by
  obtain ⟨q,hq,v,rfl⟩ := hm
  exact Quat.locked_congr (axes_turnOf hq v)

/-- The matrices that are made from the identity by rigid and pivoted factors, however many. -/
inductive Composed : Mat4 ℝ → Prop
  | identity : Composed .identity
  | rigid {m} (p : Pose ℝ) : Composed m → Composed (m * p.toMatrix)
  | pivoted {m} (p : Pose ℝ) (pivot : Vec3 ℝ) : Composed m → Composed (m * p.toMatrixAbout pivot)

lemma isRigid_toMatrix (p : Pose ℝ) : p.toMatrix.IsRigid :=
  ⟨.ofDegrees p.rotation,Quat.normSq_ofDegrees _,p.position,toMatrix_eq_ofTurn p⟩

lemma Composed.isRigid {m : Mat4 ℝ} (h : Composed m) : m.IsRigid := by
  induction h with
  | identity => exact isRigid_shift .zero
  | rigid p _ ih => exact ih.mul (isRigid_toMatrix p)
  | pivoted p pivot _ ih => exact ih.mul ((isRigid_toMatrix p).mul (isRigid_shift (-pivot)))

end Mat4

mutual

lemma Limb.composed_placedAt (t : ℝ) {P : Mat4 ℝ} (hP : P.Composed) (n : Limb ℝ) :
    ∀ x ∈ n.placedAt t P, x.world.Composed := by
  cases n with
  | leaf i l =>
    intro x hx
    rw [List.mem_singleton.mp hx]
    exact .rigid ⟨l.origin,l.rotation⟩ hP
  | joint j children =>
    exact Limb.composed_allPlacedAt t (.pivoted (j.poseAt t) j.bone.origin hP) children

/-- The places of a forest's leaves are made by rigid and pivoted factors. -/
lemma Limb.composed_allPlacedAt (t : ℝ) {P : Mat4 ℝ} (hP : P.Composed) (ns : List (Limb ℝ)) :
    ∀ x ∈ Limb.allPlacedAt t P ns, x.world.Composed := by
  cases ns with
  | nil => exact fun x hx => absurd hx List.not_mem_nil
  | cons n rest =>
    intro x hx
    rcases List.mem_append.mp hx with hx | hx
    · exact Limb.composed_placedAt t hP n x hx
    · exact Limb.composed_allPlacedAt t hP rest x hx

end

/-- Taking a world matrix apart loses nothing. The pose of a matrix that is made by rigid and pivoted
factors makes the matrix again, exactly if the angles of its turn are all determined, and within a
hundred thousandth in each entry if not. All matrices at which a skeleton places its leaves are of
this kind. -/
theorem Pose.recomposes :
    (∀ m, Mat4.Composed m →
      (¬(turnOf m).Locked → (ofMatrix m).toMatrix = m) ∧
      ((turnOf m).Locked →
        List.Forall₂ (fun a b => |a - b| ≤ 1 / 10 ^ 5) (ofMatrix m).toMatrix.toList m.toList)) ∧
    ∀ (s : Skeleton ℝ) t, ∀ x ∈ s.placedAt t .identity, Mat4.Composed x.world := by
  refine ⟨fun m hm => ?_,fun s t => Limb.composed_allPlacedAt t .identity s.roots⟩
  obtain ⟨q,hq,v,rfl⟩ := hm.isRigid
  rw [Mat4.toMatrix_ofMatrix hq,Quat.locked_congr (Mat4.axes_turnOf hq v)]
  refine ⟨fun hfree => Mat4.ofTurn_congr (Quat.axes_toDegrees hq hfree) v,fun hlocked => ?_⟩
  obtain ⟨⟨hXx,hXy,hXz⟩,⟨hYx,hYy,hYz⟩,hZx,hZy,hZz⟩ := Quat.axes_toDegrees_near hq hlocked
  have hself (a : ℝ) : |a - a| ≤ 1 / 10 ^ 5 := by norm_num
  exact .cons hXx (.cons hXy (.cons hXz (.cons (hself 0) (.cons hYx (.cons hYy (.cons hYz
    (.cons (hself 0) (.cons hZx (.cons hZy (.cons hZz (.cons (hself 0) (.cons (hself v.x)
      (.cons (hself v.y) (.cons (hself v.z) (.cons (hself 1) .nil)))))))))))))))

/-- A pivoted turn by the angles of `s` below a turn by those of `r`. -/
noncomputable def jointed (r s : Vec3 ℝ) : Mat4 ℝ :=
  .identity * Pose.toMatrix ⟨⟨1,0,-1⟩,r⟩ * Pose.toMatrixAbout ⟨⟨0,1,1⟩,s⟩ ⟨1,1,1⟩

lemma jointed_composed (r s : Vec3 ℝ) : (jointed r s).Composed :=
  .pivoted _ _ (.rigid _ .identity)

lemma degrees_zero : degrees (0 : ℝ) = 0 :=
  zero_mul _

lemma degrees_right : degrees (Real.pi / 2) = 90 := by
  have hpi : (Real.pi : ℝ) ≠ 0 := Real.pi_ne_zero
  change Real.pi / 2 * (((180 : Nat) : ℝ) / Real.pi) = 90
  push_cast
  field_simp
  norm_num

lemma axes_of_degrees {d e f a b c : ℝ} (ha : degrees a = d) (hb : degrees b = e)
    (hc : degrees c = f) : (Quat.ofDegrees ⟨d,e,f⟩).axes = Quat.turned a b c := by
  rw [← ha,← hb,← hc,Quat.axes_ofDegrees]

/-- A quarter turn about the first axis exchanges two entries of the last row of the turn above, and
negates one of them. -/
lemma jointed_last_row (r : Vec3 ℝ) :
    (jointed r ⟨90,0,0⟩).yAxis.z = (Quat.ofDegrees r).axes.2.2.z ∧
      (jointed r ⟨90,0,0⟩).zAxis.z = -(Quat.ofDegrees r).axes.2.1.z := by
  have haxes := axes_of_degrees degrees_right degrees_zero degrees_zero
  simp [jointed,Pose.toMatrixAbout,Mat4.toMatrix_eq_ofTurn,Mat4.ofTurn,haxes,Quat.turned,
    Mat4.identity,Mat4.shift,Vec3.point]

/-- A quarter turn about the third axis leaves all angles determined, and all is found again. One
about the second axis does not, and all is nearly found again. -/
theorem jointed_recomposes :
    (¬(Pose.turnOf (jointed ⟨0,0,90⟩ ⟨90,0,0⟩)).Locked ∧
      (Pose.ofMatrix (jointed ⟨0,0,90⟩ ⟨90,0,0⟩)).toMatrix = jointed ⟨0,0,90⟩ ⟨90,0,0⟩) ∧
    (Pose.turnOf (jointed ⟨0,90,0⟩ ⟨90,0,0⟩)).Locked ∧
      List.Forall₂ (fun a b => |a - b| ≤ 1 / 10 ^ 5)
        (Pose.ofMatrix (jointed ⟨0,90,0⟩ ⟨90,0,0⟩)).toMatrix.toList
        (jointed ⟨0,90,0⟩ ⟨90,0,0⟩).toList := by
  have hfree : ¬(Pose.turnOf (jointed ⟨0,0,90⟩ ⟨90,0,0⟩)).Locked := by
    rw [(jointed_composed _ _).isRigid.locked_iff,(jointed_last_row _).1,(jointed_last_row _).2,
      axes_of_degrees degrees_zero degrees_zero degrees_right]
    norm_num [Quat.turned,Quat.gimbalLimit]
  have hlocked : (Pose.turnOf (jointed ⟨0,90,0⟩ ⟨90,0,0⟩)).Locked := by
    rw [(jointed_composed _ _).isRigid.locked_iff,(jointed_last_row _).1,(jointed_last_row _).2,
      axes_of_degrees degrees_zero degrees_right degrees_zero]
    norm_num [Quat.turned,Quat.gimbalLimit]
  exact ⟨⟨hfree,(Pose.recomposes.1 _ (jointed_composed _ _)).1 hfree⟩,hlocked,
    (Pose.recomposes.1 _ (jointed_composed _ _)).2 hlocked⟩

end RigPack
