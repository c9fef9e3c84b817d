import RigPack.Text.Letters

/-! Numerals of data files: their grammar, and the doubles and counts that they denote. -/

namespace RigPack

/-- The numeral `± significand * 10 ^ exponent`, with as many digits as a word of sixty-four bits
holds. -/
structure Numeral where
  negative : Bool
  significand : Nat
  exponent : Int
  /-- Whether it was written with digits alone, without a point or a power of ten. -/
  integral : Bool
  deriving DecidableEq, Repr

namespace Numeral

/-- The greatest power of ten that is a double. -/
def greatestPower : Nat := 308

/-- A power of ten, rounded once. -/
def powerOfTen (n : Nat) : Float :=
  Float.ofScientific 1 false n

/-- Divides by a power of ten, by one double at a time. -/
def divideByPower (x : Float) (n : Nat) : Float :=
  if n ≤ greatestPower then x / powerOfTen n
  else if x == 0 then x
  else divideByPower (x / powerOfTen greatestPower) (n - greatestPower)
termination_by n
decreasing_by
  simp only [greatestPower] at *
  omega

/-- Multiplies by a power of ten, if that leaves a finite double. -/
def multiplyByPower? (x : Float) (n : Nat) : Option Float :=
  if n ≤ greatestPower then
    let y := x * powerOfTen n
    if y.isFinite then some y else none
  else if x == 0 then some x else none

/-- The double that a numeral denotes, if it is finite: the significand, rounded, and then brought
to its power of ten, which rounds once more. So the result need not be the nearest double. -/
def toFloat? (n : Numeral) : Option Float := do
  let x := Float.ofNat n.significand
  let x ← match n.exponent with
    | .ofNat e => multiplyByPower? x e
    | .negSucc e => some (divideByPower x (e + 1))
  return if n.negative then -x else x

/-- The count written with digits alone, if it fits a word. -/
def toUInt32? (n : Numeral) : Option UInt32 :=
  if n.integral && !n.negative && n.significand < UInt32.size then some n.significand.toUInt32
  else none

/-- The digits at the front of a text, and what follows them. -/
def digitSpan : List Letter → List Char × List Letter
  | some c :: rest =>
    if c.isDigit then
      let (digits, rest) := digitSpan rest
      (c :: digits, rest)
    else ([], some c :: rest)
  | rest => ([], rest)

def ofDigits (digits : List Char) : Nat :=
  digits.foldl (fun n c => 10 * n + (c.toNat - '0'.toNat)) 0

def significandLimit : Nat := 0xFFFFFFFFFFFFFFFF

/-- Puts digits behind a significand up to the first that does not fit. The second result is the
number of digits that are left. -/
def appendDigits (significand : Nat) : List Char → Nat × Nat
  | [] => (significand, 0)
  | c :: rest =>
    let more := 10 * significand + (c.toNat - '0'.toNat)
    if more ≤ significandLimit then appendDigits more rest else (significand, rest.length + 1)

/-- The whole part: a zero alone, or digits that start with another one. -/
def wholePart (text : List Letter) : Option (List Char × List Letter) :=
  match digitSpan text with
  | ([], _) => none
  | ('0' :: _ :: _, _) => none
  | (digits, rest) => some (digits, rest)

/-- The digits after a point, if there is a point. -/
def fractionPart : List Letter → Option (Option (List Char) × List Letter)
  | some '.' :: rest =>
    match digitSpan rest with
    | ([], _) => none
    | (digits, rest) => some (some digits, rest)
  | rest => some (none, rest)

/-- The sign of a power of ten. -/
def powerSign : List Letter → Bool × List Letter
  | some '-' :: rest => (true, rest)
  | some '+' :: rest => (false, rest)
  | rest => (false, rest)

/-- The power of ten, if there is one. -/
def powerPart : List Letter → Option (Option Int × List Letter)
  | some c :: rest =>
    if c = 'e' ∨ c = 'E' then
      let (negative, rest) := powerSign rest
      match digitSpan rest with
      | ([], _) => none
      | (digits, rest) =>
        let n := ofDigits digits
        some (some (if negative then -(n : Int) else n), rest)
    else some (none, some c :: rest)
  | rest => some (none, rest)

/-- The numeral without its minus sign, if there is one. -/
def sign : List Letter → Bool × List Letter
  | some '-' :: rest => (true, rest)
  | rest => (false, rest)

/-- The numeral with these digits before and after the point. Digits before the point that do not
fit count as zeros; those after it are tried all the same, and dropped from the first that does not
fit. -/
def ofParts (negative : Bool) (whole : List Char) (fraction : Option (List Char))
    (power : Option Int) : Numeral :=
  let places := fraction.getD []
  let (significand, wholeLeft) := appendDigits 0 whole
  let (significand, placesLeft) := appendDigits significand places
  { negative, significand
    exponent := power.getD 0 + wholeLeft - (places.length - placesLeft)
    integral := fraction.isNone && power.isNone }

/-- The numeral at the front of a text, and what follows it. -/
def read (text : List Letter) : Option (Numeral × List Letter) := do
  let (negative, rest) := sign text
  let (whole, rest) ← wholePart rest
  let (fraction, rest) ← fractionPart rest
  let (power, rest) ← powerPart rest
  some (ofParts negative whole fraction power, rest)

end Numeral
end RigPack
