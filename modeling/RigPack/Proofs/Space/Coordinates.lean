import RigPack.Space.Mat4

/-! Vectors, columns and matrices by their coordinates. -/

namespace RigPack

attribute [ext] Vec3 Vec4 Mat4

variable {α : Type} [Scalar α]

namespace Vec3

@[simp] theorem x_add (a b : Vec3 α) : (a + b).x = a.x + b.x := rfl
@[simp] theorem y_add (a b : Vec3 α) : (a + b).y = a.y + b.y := rfl
@[simp] theorem z_add (a b : Vec3 α) : (a + b).z = a.z + b.z := rfl

@[simp] theorem x_sub (a b : Vec3 α) : (a - b).x = a.x - b.x := rfl
@[simp] theorem y_sub (a b : Vec3 α) : (a - b).y = a.y - b.y := rfl
@[simp] theorem z_sub (a b : Vec3 α) : (a - b).z = a.z - b.z := rfl

@[simp] theorem x_neg (a : Vec3 α) : (-a).x = -a.x := rfl
@[simp] theorem y_neg (a : Vec3 α) : (-a).y = -a.y := rfl
@[simp] theorem z_neg (a : Vec3 α) : (-a).z = -a.z := rfl

@[simp] theorem x_scale (a : Vec3 α) (s : α) : (a.scale s).x = a.x * s := rfl
@[simp] theorem y_scale (a : Vec3 α) (s : α) : (a.scale s).y = a.y * s := rfl
@[simp] theorem z_scale (a : Vec3 α) (s : α) : (a.scale s).z = a.z * s := rfl

end Vec3

namespace Mat4

@[simp] theorem xAxis_mul (a b : Mat4 α) : (a * b).xAxis = a.apply b.xAxis := rfl
@[simp] theorem yAxis_mul (a b : Mat4 α) : (a * b).yAxis = a.apply b.yAxis := rfl
@[simp] theorem zAxis_mul (a b : Mat4 α) : (a * b).zAxis = a.apply b.zAxis := rfl
@[simp] theorem wAxis_mul (a b : Mat4 α) : (a * b).wAxis = a.apply b.wAxis := rfl

@[simp] theorem x_apply (m : Mat4 α) (v : Vec4 α) :
    (m.apply v).x = m.xAxis.x * v.x + m.yAxis.x * v.y + m.zAxis.x * v.z + m.wAxis.x * v.w := rfl
@[simp] theorem y_apply (m : Mat4 α) (v : Vec4 α) :
    (m.apply v).y = m.xAxis.y * v.x + m.yAxis.y * v.y + m.zAxis.y * v.z + m.wAxis.y * v.w := rfl
@[simp] theorem z_apply (m : Mat4 α) (v : Vec4 α) :
    (m.apply v).z = m.xAxis.z * v.x + m.yAxis.z * v.y + m.zAxis.z * v.z + m.wAxis.z * v.w := rfl
@[simp] theorem w_apply (m : Mat4 α) (v : Vec4 α) :
    (m.apply v).w = m.xAxis.w * v.x + m.yAxis.w * v.y + m.zAxis.w * v.z + m.wAxis.w * v.w := rfl

end Mat4
end RigPack
