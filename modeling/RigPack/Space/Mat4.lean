import RigPack.Space.Vec3

/-! Homogeneous matrices by columns: the three axes, then the displacement. -/

namespace RigPack

/-- A column of a homogeneous matrix. -/
structure Vec4 (α : Type) where
  x : α
  y : α
  z : α
  w : α
  deriving DecidableEq, Repr, Inhabited

namespace Vec4

variable {α β : Type}

def map (f : α → β) (v : Vec4 α) : Vec4 β :=
  ⟨f v.x, f v.y, f v.z, f v.w⟩

def toList (v : Vec4 α) : List α :=
  [v.x, v.y, v.z, v.w]

def xyz (v : Vec4 α) : Vec3 α :=
  ⟨v.x, v.y, v.z⟩

variable [Scalar α]

instance : Add (Vec4 α) := ⟨fun a b => ⟨a.x + b.x, a.y + b.y, a.z + b.z, a.w + b.w⟩⟩

def scale (v : Vec4 α) (s : α) : Vec4 α :=
  ⟨v.x * s, v.y * s, v.z * s, v.w * s⟩

def dot (a b : Vec4 α) : α :=
  a.x * b.x + a.y * b.y + a.z * b.z + a.w * b.w

end Vec4

structure Mat4 (α : Type) where
  xAxis : Vec4 α
  yAxis : Vec4 α
  zAxis : Vec4 α
  wAxis : Vec4 α
  deriving DecidableEq, Repr, Inhabited

namespace Mat4

variable {α β : Type}

def map (f : α → β) (m : Mat4 α) : Mat4 β :=
  ⟨m.xAxis.map f, m.yAxis.map f, m.zAxis.map f, m.wAxis.map f⟩

/-- The sixteen entries, column after column. -/
def toList (m : Mat4 α) : List α :=
  m.xAxis.toList ++ m.yAxis.toList ++ m.zAxis.toList ++ m.wAxis.toList

variable [Scalar α]

/-- The matrix that moves every point by `v`. -/
def shift (v : Vec3 α) : Mat4 α :=
  let o : α := (0 : Nat)
  let i : α := (1 : Nat)
  ⟨⟨i, o, o, o⟩, ⟨o, i, o, o⟩, ⟨o, o, i, o⟩, ⟨v.x, v.y, v.z, i⟩⟩

def identity : Mat4 α :=
  shift .zero

/-- The image of a column, summed from the first axis to the last. -/
def apply (m : Mat4 α) (v : Vec4 α) : Vec4 α :=
  m.xAxis.scale v.x + m.yAxis.scale v.y + m.zAxis.scale v.z + m.wAxis.scale v.w

instance : Mul (Mat4 α) :=
  ⟨fun a b => ⟨a.apply b.xAxis, a.apply b.yAxis, a.apply b.zAxis, a.apply b.wAxis⟩⟩

/-- The determinant, expanded along the first entries of the columns' rows. -/
def determinant (m : Mat4 α) : α :=
  let minor (f g : Vec4 α → α) : α := f m.zAxis * g m.wAxis - g m.zAxis * f m.wAxis
  let zw := minor Vec4.z Vec4.w
  let yw := minor Vec4.y Vec4.w
  let yz := minor Vec4.y Vec4.z
  let xw := minor Vec4.x Vec4.w
  let xz := minor Vec4.x Vec4.z
  let xy := minor Vec4.x Vec4.y
  let r := m.yAxis
  m.xAxis.x * (r.y * zw - r.z * yw + r.w * yz)
    - m.xAxis.y * (r.x * zw - r.z * xw + r.w * xz)
    + m.xAxis.z * (r.x * yw - r.y * xw + r.w * xy)
    - m.xAxis.w * (r.x * yz - r.y * xz + r.z * xy)

end Mat4
end RigPack
