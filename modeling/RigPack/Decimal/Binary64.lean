/-! Doubles taken apart into sign, whole mantissa and power of two. -/

namespace RigPack

/-- What a double stands for. -/
inductive Binary64
  | nan
  | infinite (negative : Bool)
  /-- The number `± mantissa * 2 ^ exponent`. -/
  | finite (negative : Bool) (mantissa : Nat) (exponent : Int)
  deriving DecidableEq, Repr

namespace Binary64

/-- Doubles below this magnitude all have this exponent and share one spacing. -/
def leastExponent : Int := -1074

/-- The mantissa of every larger double has this leading bit. -/
def leadingBit : Nat := 0x10000000000000

def ofFloat (x : Float) : Binary64 :=
  let bits := x.toBits
  let negative := bits >>> 63 != 0
  let field := ((bits >>> 52) &&& 0x7ff).toNat
  let fraction := (bits &&& 0xfffffffffffff).toNat
  if field = 0x7ff then
    if fraction = 0 then .infinite negative else .nan
  else if field = 0 then
    .finite negative fraction leastExponent
  else
    .finite negative (leadingBit + fraction) (leastExponent + (field - 1 : Nat))

end Binary64
end RigPack
