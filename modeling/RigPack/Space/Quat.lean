import RigPack.Space.Mat4

/-!
Rotations. A rotation is authored as three angles in degrees, applied about the third axis last, and
passes through a unit quaternion on its way to a matrix and back.
-/

namespace RigPack

structure Quat (α : Type) where
  x : α
  y : α
  z : α
  w : α
  deriving DecidableEq, Repr, Inhabited

variable {α : Type} [Trigonometric α]

def radians (d : α) : α :=
  d * (Trigonometric.pi / ((180 : Nat) : α))

def degrees (r : α) : α :=
  r * (((180 : Nat) : α) / Trigonometric.pi)

namespace Quat

/-- The rotation by the angles of `r`, in degrees: about the first axis, then the second, then the
third. -/
def ofDegrees (r : Vec3 α) : Quat α :=
  let half (d : α) : α := radians d * (((1 : Nat) : α) / ((2 : Nat) : α))
  let si := Trigonometric.sin (half r.z)
  let ci := Trigonometric.cos (half r.z)
  let sj := Trigonometric.sin (half r.y)
  let cj := Trigonometric.cos (half r.y)
  let sh := Trigonometric.sin (half r.x)
  let ch := Trigonometric.cos (half r.x)
  let cc := ci * ch
  let cs := ci * sh
  let sc := si * ch
  let ss := si * sh
  ⟨cj * cs - sj * sc, cj * ss + sj * cc, cj * sc - sj * cs, cj * cc + sj * ss⟩

/-- The images of the three axes under the rotation. -/
def axes (q : Quat α) : Vec3 α × Vec3 α × Vec3 α :=
  let one : α := (1 : Nat)
  let x2 := q.x + q.x
  let y2 := q.y + q.y
  let z2 := q.z + q.z
  let xx := q.x * x2
  let xy := q.x * y2
  let xz := q.x * z2
  let yy := q.y * y2
  let yz := q.y * z2
  let zz := q.z * z2
  let wx := q.w * x2
  let wy := q.w * y2
  let wz := q.w * z2
  (⟨one - (yy + zz), xy + wz, xz - wy⟩, ⟨xy - wz, one - (xx + zz), yz + wx⟩,
    ⟨xz + wy, yz - wx, one - (xx + yy)⟩)

/-- The rotation with these images of the axes. Of the four ways to take the square root the one is
used under whose root the largest sum stands. -/
def ofAxes (X Y Z : Vec3 α) : Quat α :=
  let zero : α := (0 : Nat)
  let one : α := (1 : Nat)
  let inverse (f : α) : α := one / ((2 : Nat) : α) / Trigonometric.sqrt f
  if Z.z ≤ zero then
    let difference := Y.y - X.x
    let rest := one - Z.z
    if difference ≤ zero then
      let f := rest - difference
      let i := inverse f
      ⟨f * i, (X.y + Y.x) * i, (X.z + Z.x) * i, (Y.z - Z.y) * i⟩
    else
      let f := rest + difference
      let i := inverse f
      ⟨(X.y + Y.x) * i, f * i, (Y.z + Z.y) * i, (Z.x - X.z) * i⟩
  else
    let sum := Y.y + X.x
    let rest := one + Z.z
    if sum ≤ zero then
      let f := rest - sum
      let i := inverse f
      ⟨(X.z + Z.x) * i, (Y.z + Z.y) * i, f * i, (X.y - Y.x) * i⟩
    else
      let f := rest + sum
      let i := inverse f
      ⟨(Y.z - Z.y) * i, (Z.x - X.z) * i, (X.y - Y.x) * i, f * i⟩

/-- Below this cosine of the middle angle the other two turn about one axis, and only their sum is
determined. It is sixteen times the distance from one to the next double. -/
def gimbalLimit : α :=
  ((16 : Nat) : α) / ((0x10000000000000 : Nat) : α)

/-- The angles of a rotation in degrees. Where only the sum of two angles is determined, the first
is zero. -/
def toDegrees (q : Quat α) : Vec3 α :=
  let (X, Y, Z) := q.axes
  let cosine := Trigonometric.sqrt (Z.z * Z.z + Y.z * Y.z)
  let middle := Trigonometric.atan2 (-X.z) cosine
  if gimbalLimit < cosine then
    ⟨degrees (Trigonometric.atan2 Y.z Z.z), degrees middle, degrees (Trigonometric.atan2 X.y X.x)⟩
  else
    ⟨degrees ((0 : Nat) : α), degrees middle, degrees (Trigonometric.atan2 (-Y.x) Y.y)⟩

end Quat
end RigPack
