import RigPack.Text.Letters

/-!
String literals of data files. A literal is a list of pieces between quotes; the pieces may be in
order and yet denote no text, when half of a surrogate pair stands alone.
-/

namespace RigPack
namespace Literal

/-- One character of a literal as it was written. -/
inductive Piece
  | letter (l : Letter)
  /-- A sixteen-bit unit given by four hexadecimal digits. -/
  | unit (n : Nat)
  deriving DecidableEq, Repr

/-- The text that pieces denote. Two units may denote one character together. -/
def denote : List Piece → Option (List Char)
  | [] => some []
  | .letter (some c) :: rest => (denote rest).map (c :: ·)
  | .letter none :: _ => none
  | .unit high :: rest =>
    if high < 0xD800 ∨ 0xDFFF < high then (denote rest).map (Char.ofNat high :: ·)
    else if 0xDC00 ≤ high then none
    else match rest with
      | .unit low :: rest =>
        if 0xDC00 ≤ low ∧ low ≤ 0xDFFF then
          (denote rest).map (Char.ofNat (0x10000 + (high - 0xD800) * 0x400 + (low - 0xDC00)) :: ·)
        else none
      | _ => none

/-- The value of a hexadecimal digit of either case. -/
def hexValue : Letter → Option Nat
  | none => none
  | some c =>
    if c.isDigit then some (c.toNat - 48)
    else if 'a' ≤ c ∧ c ≤ 'f' then some (c.toNat - 87)
    else if 'A' ≤ c ∧ c ≤ 'F' then some (c.toNat - 55)
    else none

def hexUnit (a b c d : Letter) : Option Nat := do
  some ((((← hexValue a) * 16 + (← hexValue b)) * 16 + (← hexValue c)) * 16 + (← hexValue d))

/-- The character that a backslash before a letter stands for. -/
def escaped : Letter → Option Char
  | some '"' => some '"'
  | some '\\' => some '\\'
  | some '/' => some '/'
  | some 'b' => some '\x08'
  | some 'f' => some '\x0c'
  | some 'n' => some '\n'
  | some 'r' => some '\r'
  | some 't' => some '\t'
  | _ => none

/-- The pieces up to the closing quote, and what follows it. The opening quote has been read. -/
def pieces : List Letter → Option (List Piece × List Letter)
  | [] => none
  | some '"' :: rest => some ([], rest)
  | some '\\' :: some 'u' :: a :: b :: c :: d :: rest => do
    let n ← hexUnit a b c d
    let (more, rest) ← pieces rest
    some (.unit n :: more, rest)
  | some '\\' :: l :: rest => do
    let c ← escaped l
    let (more, rest) ← pieces rest
    some (.letter (some c) :: more, rest)
  | some c :: rest =>
    if c.toNat < 0x20 ∨ c = '\\' then none
    else do
      let (more, rest) ← pieces rest
      some (.letter (some c) :: more, rest)
  | none :: rest => do
    let (more, rest) ← pieces rest
    some (.letter none :: more, rest)

/-- A literal after its opening quote: the text it denotes, if any, and what follows. -/
def read (text : List Letter) : Option (Option String × List Letter) :=
  (pieces text).map fun (ps, rest) => ((denote ps).map String.ofList, rest)

def hexDigit (n : Nat) : Char :=
  if n < 10 then Char.ofNat (48 + n) else Char.ofNat (87 + n)

/-- A character inside quotes. Only quotes, backslashes and control characters are escaped. -/
def escape (c : Char) : List Char :=
  if c = '"' then ['\\', '"']
  else if c = '\\' then ['\\', '\\']
  else if c = '\x08' then ['\\', 'b']
  else if c = '\x0c' then ['\\', 'f']
  else if c = '\n' then ['\\', 'n']
  else if c = '\r' then ['\\', 'r']
  else if c = '\t' then ['\\', 't']
  else if c.toNat < 0x20 then
    ['\\', 'u', '0', '0', hexDigit (c.toNat / 16), hexDigit (c.toNat % 16)]
  else [c]

/-- A text between quotes. -/
def quote (s : String) : String :=
  String.ofList ('"' :: s.toList.flatMap escape ++ ['"'])

end Literal
end RigPack
