/-!
The arithmetic in which curves and transforms are written. Everything that moves a rig is defined
over any `Scalar`, so that one definition is run on doubles and reasoned about over an ordered
field.
-/

namespace RigPack

/-- Numbers with the operations and comparisons that curves need. Comparisons are taken as they
come: nothing here assumes that the order is total, since a double may be no number at all. -/
class Scalar (α : Type) extends Add α, Sub α, Mul α, Div α, Neg α, NatCast α, LE α, LT α where
  decLe : DecidableLE α
  decLt : DecidableLT α

attribute [reducible, instance] Scalar.decLe Scalar.decLt

/-- Scalars with the functions that turn angles into matrices and back. -/
class Trigonometric (α : Type) extends Scalar α where
  pi : α
  sin : α → α
  cos : α → α
  /-- The angle of the point with ordinate `y` and abscissa `x`, given in that order. -/
  atan2 : α → α → α
  sqrt : α → α
  /-- One with the sign of its argument. -/
  signum : α → α

instance : Scalar Float where
  natCast := Float.ofNat
  decLe := inferInstance
  decLt := inferInstance

/-- A double's sign is that of its sign bit, zeros included; what is no number has none. -/
def signOfDouble (x : Float) : Float :=
  if x.isNaN then x else if x.toBits >>> 63 = 0 then 1 else -1

instance : Trigonometric Float where
  pi := 3.141592653589793
  sin := Float.sin
  cos := Float.cos
  atan2 := Float.atan2
  sqrt := Float.sqrt
  signum := signOfDouble

end RigPack
