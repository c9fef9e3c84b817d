import RigPack.Decimal.Shortest

/-!
Doubles as text. Two layouts are in use: the plain one of messages and programs, which never takes
an exponent, and the one of data files, which always shows that its number is no integer.
-/

namespace RigPack
namespace Decimal

/-- The decisions of a layout. -/
structure Layout where
  tie : Tie
  /-- Whether a number whose decimal point stands after this many digits is written without an
  exponent. -/
  positional : Int → Bool
  /-- Whether a whole number keeps `.0`. -/
  keepsFraction : Bool

/-- Messages and programs: every number at full length. -/
def plain : Layout :=
  ⟨.up, fun _ => true, false⟩

/-- Data files: magnitudes from a hundred-thousandth to below ten to the sixteenth at full length.
-/
def data : Layout :=
  ⟨.even, fun point => -5 < point && point ≤ 16, true⟩

def zeros (n : Nat) : String :=
  String.ofList (List.replicate n '0')

/-- The digits with the point put at its place. -/
def positionalText (keepsFraction : Bool) (d : Decimal) : String :=
  let digits := toString d.digits
  let point := (digits.length : Int) + d.exponent
  if 0 ≤ d.exponent then
    digits ++ zeros d.exponent.toNat ++ if keepsFraction then ".0" else ""
  else if 0 < point then
    let whole := digits.toList.take point.toNat
    String.ofList whole ++ "." ++ String.ofList (digits.toList.drop point.toNat)
  else
    "0." ++ zeros (-point).toNat ++ digits

/-- One digit, a point before the others if there are others, and the power of ten with its sign. -/
def exponentText (d : Decimal) : String :=
  let digits := toString d.digits
  let power := (digits.length : Int) + d.exponent - 1
  let mantissa := match digits.toList with
    | [] => ""
    | [c] => String.ofList [c]
    | c :: rest => String.ofList (c :: '.' :: rest)
  mantissa ++ "e" ++ (if 0 ≤ power then "+" else "") ++ toString power

def Layout.magnitude (l : Layout) (d : Decimal) : String :=
  let point := ((toString d.digits).length : Int) + d.exponent
  if l.positional point then positionalText l.keepsFraction d else exponentText d

/-- A double in a layout. Minus zero keeps its sign. -/
def Layout.text (l : Layout) (x : Float) : String :=
  match Binary64.ofFloat x with
  | .nan => "NaN"
  | .infinite negative => if negative then "-inf" else "inf"
  | .finite negative mantissa exponent =>
    (if negative then "-" else "") ++ l.magnitude (shortest l.tie mantissa exponent)

end Decimal

/-- A double at full length, with the fewest digits that denote it. -/
def plainText (x : Float) : String :=
  Decimal.plain.text x

end RigPack
