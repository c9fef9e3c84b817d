/-!
Bytes written in base 64. Only the canonical form is read: groups of four digits, the last one
padded, and no bits left over in it.
-/

namespace RigPack
namespace Base64

/-- The value of a digit: capitals, small letters, figures, and two signs. -/
def digitValue (c : Char) : Option Nat :=
  if c.isUpper then some (c.toNat - 65)
  else if c.isLower then some (c.toNat - 71)
  else if c.isDigit then some (c.toNat + 4)
  else if c = '+' then some 62
  else if c = '/' then some 63
  else none

/-- The bytes of the groups, or nothing if a group is no group. -/
def decodeGroups : List Char → Option (List UInt8)
  | [] => some []
  | [a, b, '=', '='] => do
    let n := (← digitValue a) * 64 + (← digitValue b)
    if n % 16 = 0 then some [(n / 16).toUInt8] else none
  | [a, b, c, '='] => do
    let n := ((← digitValue a) * 64 + (← digitValue b)) * 64 + (← digitValue c)
    if n % 4 = 0 then some [(n / 1024).toUInt8, (n / 4).toUInt8] else none
  | a :: b :: c :: d :: rest => do
    let n := (((← digitValue a) * 64 + (← digitValue b)) * 64 + (← digitValue c)) * 64
      + (← digitValue d)
    let bytes ← decodeGroups rest
    some ((n / 65536).toUInt8 :: (n / 256).toUInt8 :: n.toUInt8 :: bytes)
  | _ => none

def decode? (text : List Char) : Option ByteArray :=
  (decodeGroups text).map fun bytes => ⟨bytes.toArray⟩

end Base64
end RigPack
