import Mathlib.Tactic
import RigPack.Proofs.Motion.Values
import RigPack.Proofs.Space.Matrices
import RigPack.Skeleton.Sample

/-!
Motion down a skeleton in exact arithmetic. What stands above a skeleton moves all of it at once, a
bone that does not turn only shifts what hangs below it, and a bone that turns keeps its pivot.
-/

namespace RigPack

section Content

variable {α : Type}

mutual

/-- The joints of a limb in the order of their declaration. -/
def Limb.joints : Limb α → List (Joint α)
  | .joint j children => j::Limb.allJoints children
  | .leaf _ _ => []

def Limb.allJoints : List (Limb α) → List (Joint α)
  | [] => []
  | n::rest => n.joints ++ Limb.allJoints rest

end

mutual

/-- The leaves of a limb in the order of their declaration, with their places among all leaves. -/
def Limb.hanging : Limb α → List (Nat × Leaf α)
  | .joint _ children => Limb.allHanging children
  | .leaf i l => [(i,l)]

def Limb.allHanging : List (Limb α) → List (Nat × Leaf α)
  | [] => []
  | n::rest => n.hanging ++ Limb.allHanging rest

end

/-- All joints of a skeleton, at whatever depth. -/
def Skeleton.joints (s : Skeleton α) : List (Joint α) :=
  Limb.allJoints s.roots

/-- All leaves that hang in a skeleton, at whatever depth. -/
def Skeleton.hanging (s : Skeleton α) : List (Nat × Leaf α) :=
  Limb.allHanging s.roots

end Content

variable {K : Type} [Field K] [LinearOrder K] [Angular K] (t : K)

/-- A placed leaf that is moved as well. -/
def Placed.moved (P : Mat4 K) (q : Placed K) : Placed K :=
  { q with world := P * q.world }

mutual

lemma Limb.placedAt_mul (P M : Mat4 K) (n : Limb K) :
    n.placedAt t (P * M) = (n.placedAt t M).map (Placed.moved P) := by
  cases n with
  | leaf i l =>
    rw [placedAt,placedAt,mul_assoc]
    rfl
  | joint j children =>
    rw [placedAt,placedAt,mul_assoc]
    exact Limb.allPlacedAt_mul P _ children

/-- What stands above a forest moves all that it places. -/
lemma Limb.allPlacedAt_mul (P M : Mat4 K) (ns : List (Limb K)) :
    Limb.allPlacedAt t (P * M) ns = (Limb.allPlacedAt t M ns).map (Placed.moved P) := by
  cases ns with
  | nil => rfl
  | cons n rest =>
    rw [allPlacedAt,allPlacedAt,List.map_append,Limb.placedAt_mul P M n,Limb.allPlacedAt_mul P M rest]

end

mutual

lemma Limb.placedAt_still (P : Mat4 K) (n : Limb K) (h : ∀ j ∈ n.joints, j.matrixAt t = 1) :
    n.placedAt t P = n.hanging.map fun (i,l) => ⟨i,l,P * l.matrix⟩ := by
  cases n with
  | leaf i l => rfl
  | joint j children =>
    rw [joints] at h
    rw [placedAt,hanging,h j List.mem_cons_self,mul_one]
    exact Limb.allPlacedAt_still P children fun d hd => h d (List.mem_cons_of_mem j hd)

/-- A forest whose joints do not move places its leaves where they were authored. -/
lemma Limb.allPlacedAt_still (P : Mat4 K) (ns : List (Limb K))
    (h : ∀ j ∈ Limb.allJoints ns, j.matrixAt t = 1) :
    Limb.allPlacedAt t P ns = (Limb.allHanging ns).map fun (i,l) => ⟨i,l,P * l.matrix⟩ := by
  cases ns with
  | nil => rfl
  | cons n rest =>
    rw [allJoints] at h
    rw [allPlacedAt,allHanging,List.map_append,
      Limb.placedAt_still P n fun d hd => h d (List.mem_append_left _ hd),
      Limb.allPlacedAt_still P rest fun d hd => h d (List.mem_append_right _ hd)]

end

namespace Joint

variable {t} (j : Joint K)

/-- A joint without angles shifts by its displacement, wherever its pivot is. -/
lemma matrixAt_shift (h : j.bone.rotation + j.rotation.eval t = .zero) :
    j.matrixAt t = Mat4.shift (j.position.eval t) := by
  rw [matrixAt,poseAt,h,Pose.toMatrixAbout_still]

lemma matrixAt_still (hrest : j.bone.rotation = .zero) (hposition : j.position.eval t = .zero)
    (hrotation : j.rotation.eval t = .zero) : j.matrixAt t = 1 := by
  rw [matrixAt_shift j (by rw [hrest,hrotation,Vec3.add_zero]),hposition]
  rfl

/-- A joint takes its pivot where its displacement says, however it turns. -/
lemma matrixAt_pivot :
    (j.matrixAt t).apply j.bone.origin.point = (j.bone.origin + j.position.eval t).point :=
  Pose.toMatrixAbout_apply (j.poseAt t) j.bone.origin

end Joint

namespace Golem

noncomputable def torso : Leaf ℝ :=
  ⟨"torso",⟨-4,0,-2⟩,⟨4,12,2⟩,⟨0,12,0⟩,⟨0,45,0⟩,{},1⟩

noncomputable def hand : Leaf ℝ :=
  ⟨"hand",⟨-1,-10,-1⟩,⟨1,0,1⟩,⟨4,14,0⟩,.zero,{},2⟩

/-- A bone that may be lifted. -/
noncomputable def body (lift : Curve ℝ) : Joint ℝ :=
  ⟨⟨"body","body",⟨0,12,0⟩,.zero⟩,lift,.empty⟩

/-- A bone that may swing. -/
noncomputable def arm (swing : Curve ℝ) : Joint ℝ :=
  ⟨⟨"arm","arm",⟨4,22,0⟩,.zero⟩,.empty,swing⟩

/-- A hand on an arm on a body. -/
noncomputable def golem (lift swing : Curve ℝ) : Skeleton ℝ :=
  ⟨[.joint (body lift) [.leaf 0 torso,.joint (arm swing) [.leaf 1 hand]]],[torso,hand]⟩

lemma golem_joints (lift swing : Curve ℝ) : (golem lift swing).joints = [body lift,arm swing] :=
  rfl

noncomputable def lift : Curve ℝ :=
  .ofKeys [⟨0,⟨0,2,0⟩,none,.linear⟩]

noncomputable def swing : Curve ℝ :=
  .ofKeys [⟨0,⟨0,0,90⟩,none,.linear⟩]

end Golem

end RigPack
