import RigPack.Decimal.Binary64

/-!
The shortest decimals that denote a double. A decimal denotes the double it is nearest to; the reals
nearest to one double form an interval, and a decimal with the fewest digits in that interval is
found on the coarsest decimal grid that meets it.
-/

namespace RigPack

/-- The number `digits * 10 ^ exponent`. -/
structure Decimal where
  digits : Nat
  exponent : Int
  deriving DecidableEq, Repr

namespace Decimal

/-- Which of two equally near decimals is taken. -/
inductive Tie
  /-- The one farther from zero. -/
  | up
  /-- The one with the even last digit. -/
  | even
  deriving DecidableEq, Repr

/-- A positive rational with the interval around it, all three over one denominator. -/
structure Target where
  low : Nat
  value : Nat
  high : Nat
  denominator : Nat
  /-- Whether the ends of the interval belong to it. -/
  closed : Bool
  deriving DecidableEq, Repr

namespace Target

/-- The interval of the reals that round to `mantissa * 2 ^ exponent`, in quarters of the spacing of
doubles there. Below a power of two the spacing halves. -/
def ofBinary (mantissa : Nat) (exponent : Int) : Target :=
  let scale := exponent - 2
  let up := Nat.pow 2 scale.toNat
  let narrow := mantissa = Binary64.leadingBit ∧ Binary64.leastExponent < exponent
  { low := (4 * mantissa - if narrow then 1 else 2) * up
    value := 4 * mantissa * up
    high := (4 * mantissa + 2) * up
    denominator := Nat.pow 2 (-scale).toNat
    closed := mantissa % 2 = 0 }

/-- The target measured in units of `10 ^ k`. -/
def inUnits (t : Target) (k : Int) : Target :=
  let numerator := Nat.pow 10 (-k).toNat
  { t with
    low := t.low * numerator
    value := t.value * numerator
    high := t.high * numerator
    denominator := t.denominator * Nat.pow 10 k.toNat }

/-- Whether the whole number `c` lies in the interval. -/
def contains (t : Target) (c : Nat) : Bool :=
  let n := c * t.denominator
  if t.closed then t.low ≤ n && n ≤ t.high else t.low < n && n < t.high

/-- The whole number in the interval that is nearest to the value, among the two neighbours of the
value. If any whole number lies in the interval then one of the two does. -/
def nearest? (t : Target) (tie : Tie) : Option Nat :=
  let below := t.value / t.denominator
  let above := below + 1
  match t.contains below, t.contains above with
  | false, false => none
  | true, false => some below
  | false, true => some above
  | true, true =>
    let rest := 2 * (t.value % t.denominator)
    if rest < t.denominator then some below
    else if t.denominator < rest then some above
    else match tie with
      | .up => some above
      | .even => some (if below % 2 = 0 then below else above)

/-- The power of ten above the value: the least `k` such that the value is below `10 ^ k`, found
from an estimate by one step either way. -/
def decade (t : Target) : Int :=
  let octave := (t.value.log2 : Int) - t.denominator.log2
  let guess := octave * 30103 / 100000
  let below (k : Int) : Bool := t.value * Nat.pow 10 (-k).toNat < t.denominator * Nat.pow 10 k.toNat
  if below (guess - 1) then guess - 1
  else if below guess then guess
  else if below (guess + 1) then guess + 1
  else if below (guess + 2) then guess + 2
  else guess + 3

/-- The first hit on the grids of `10 ^ k`, `10 ^ (k - 1)`, and so on. -/
def firstHit (t : Target) (tie : Tie) (k : Int) : Nat → Decimal
  | 0 => ⟨t.value / t.denominator, 0⟩
  | n + 1 =>
    match (t.inUnits k).nearest? tie with
    | some digits => ⟨digits, k⟩
    | none => firstHit t tie (k - 1) n

end Target

/-- The same number without trailing zeros in its digits. -/
def trimZeros (d : Decimal) : Decimal :=
  if h : d.digits = 0 ∨ d.digits % 10 ≠ 0 then d
  else trimZeros ⟨d.digits / 10, d.exponent + 1⟩
termination_by d.digits
decreasing_by
  simp only [not_or] at h
  exact Nat.div_lt_self (Nat.pos_of_ne_zero h.1) (by decide)

/-- The shortest decimal that denotes the double `mantissa * 2 ^ exponent`. Seventeen digits always
suffice. -/
def shortest (tie : Tie) (mantissa : Nat) (exponent : Int) : Decimal :=
  if mantissa = 0 then ⟨0, 0⟩
  else
    let t := Target.ofBinary mantissa exponent
    trimZeros (t.firstHit tie (t.decade - 1) 18)

end Decimal
end RigPack
