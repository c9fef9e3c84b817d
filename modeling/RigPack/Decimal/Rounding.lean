import RigPack.Decimal.Layout

/-! Rounding to decimal places, and the numbers of directive text. -/

namespace RigPack

/-- A power by repeated squaring, the factors taken from the lowest bit of the exponent up. -/
def squaringPower (r a : Float) (n : Nat) : Float :=
  let r := if n % 2 = 1 then r * a else r
  if h : n / 2 = 0 then r else squaringPower r (a * a) (n / 2)
termination_by n
decreasing_by omega

/-- Ten to a whole power. A negative power is the inverse of the positive one. -/
def powerOfTen (n : Int) : Float :=
  let p := squaringPower 1 10 n.natAbs
  if n < 0 then 1 / p else p

/-- The nearest double to a multiple of a decimal place, halves going away from zero. -/
def roundTo (x : Float) (places : Int) : Float :=
  let p := powerOfTen places
  (x * p).round / p

def directivePlaces : Int := 5

/-- A number as directives write it: rounded, at full length, and without minus zero. -/
def directiveNumber (x : Float) : String :=
  let r := roundTo x directivePlaces
  if r == 0 then "0" else plainText r

end RigPack
